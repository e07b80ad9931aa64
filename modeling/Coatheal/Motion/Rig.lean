import Coatheal.Library.Run
import Coatheal.Motion.Ownership
import Mathlib.Data.Rat.Floor

/-!
# Motors that share one lock

A rig is any number of channels with one motion lock. Its steps are channel
operations and ticks in any order, and drivers whose state changes by itself.
The lock follows the motion in every state of a run exactly when no command ever
ends the motion of a busy channel in place.
-/

set_option linter.unusedSectionVars false

namespace Coatheal.Motion

open Coatheal.Library

/-- What can happen to one channel. -/
inductive Operation (K δ : Type*) where
  | moveSteps (delta : ℤ)
  | moveToSteps (absolute : ℤ) (hold : K)
  | moveMillimeters (deltaMm : Option K)
  | moveToMillimeters (absoluteMm : Option K) (hold : K)
  | rotate (revolutions : K)
  | home
  | stop
  | setPositionZero
  | acknowledgeStepLoss
  | setSpeed (fullStepHz : K)
  | setAccel (accel : Option K)
  | setRunCurrent (aRms : K)
  | setMicrostep (divisor : ℤ)
  | setEnabled (enable : Bool)
  | armPullCycle
  | tick (dt : K) (now : ℤ)
  | pulse (elapsed : K)
  | driverChange (after : δ)

variable {ι K δ : Type*} [DecidableEq ι] [Field K] [LinearOrder K] [FloorRing K]

/-- What the channels call outside themselves: their drivers, the square root, and the printing of
a number in a message. -/
structure Platform (K δ : Type*) where
  hal : StepperDriver K δ
  sqrt : K → K
  shown : K → String

namespace Operation

/-- Carry out an operation of one channel. -/
def apply (platform : Platform K δ) (motor : ι) (s : Locked ι K δ) : Operation K δ → Locked ι K δ
  | .moveSteps delta => (s.moveSteps motor delta).2
  | .moveToSteps absolute hold => (s.moveToSteps motor absolute hold).2
  | .moveMillimeters deltaMm => (s.moveMillimeters motor deltaMm).2
  | .moveToMillimeters absoluteMm hold => (s.moveToMillimeters motor absoluteMm hold).2
  | .rotate revolutions => (s.rotate motor revolutions).2
  | .home => (s.home motor).2
  | .stop => s.stop motor
  | .setPositionZero => s.setPositionZero motor
  | .acknowledgeStepLoss => ⟨s.lock, s.channel.acknowledgeStepLoss⟩
  | .setSpeed fullStepHz => ⟨s.lock, (s.channel.setSpeed fullStepHz).2⟩
  | .setAccel accel => ⟨s.lock, (s.channel.setAccel platform.shown accel).2⟩
  | .setRunCurrent aRms => ⟨s.lock, (s.channel.setRunCurrent platform.hal aRms).2⟩
  | .setMicrostep divisor => ⟨s.lock, (s.channel.setMicrostep platform.hal divisor).2⟩
  | .setEnabled enable => (s.setEnabled platform.hal motor enable).2
  | .armPullCycle => (s.armPullCycle motor).2
  | .tick dt now => s.tick platform.hal platform.sqrt motor dt now
  | .pulse elapsed => s.pulse platform.hal platform.sqrt motor elapsed
  | .driverChange after => ⟨s.lock, { s.channel with driver := s.channel.driver.map fun _ => after }⟩

/-- The operation is an accepted move onto the present position, with no hold to follow. -/
def InPlace (c : StepperChannel K δ) : Operation K δ → Prop
  | .moveSteps delta => Locked.MoveStepsInPlace c delta
  | .moveToSteps absolute hold => Locked.MoveToStepsInPlace c absolute hold
  | .moveMillimeters deltaMm =>
    ∃ usteps, Locked.ustepsOf c deltaMm = .ok usteps ∧ Locked.MoveStepsInPlace c usteps
  | .moveToMillimeters absoluteMm hold =>
    ∃ usteps, Locked.ustepsOf c absoluteMm = .ok usteps ∧ Locked.MoveToStepsInPlace c usteps hold
  | .rotate revolutions => 0 < c.cfg.fullStepsPerRev ∧
      Locked.MoveStepsInPlace c (Locked.ustepsOfRevolutions c revolutions)
  | .home => Locked.HomeInPlace c
  | _ => False

/-- The operation is one of the commands that set a motor going. -/
def isMotion : Operation K δ → Bool
  | .moveSteps _ | .moveToSteps _ _ | .moveMillimeters _ | .moveToMillimeters _ _ | .rotate _ | .home
  | .armPullCycle => true
  | _ => false

/-- The operation is accepted, as far as the channel decides it, and needs the lock. -/
def Engages (c : StepperChannel K δ) : Operation K δ → Prop
  | .moveSteps delta => Locked.MoveStepsEngages c delta
  | .moveToSteps absolute hold => Locked.MoveToStepsEngages c absolute hold
  | .moveMillimeters deltaMm =>
    ∃ usteps, Locked.ustepsOf c deltaMm = .ok usteps ∧ Locked.MoveStepsEngages c usteps
  | .moveToMillimeters absoluteMm hold =>
    ∃ usteps, Locked.ustepsOf c absoluteMm = .ok usteps ∧ Locked.MoveToStepsEngages c usteps hold
  | .rotate revolutions => 0 < c.cfg.fullStepsPerRev ∧
      Locked.MoveStepsEngages c (Locked.ustepsOfRevolutions c revolutions)
  | .home => Locked.HomeEngages c
  | .armPullCycle => Locked.ArmPullCycleEngages c
  | _ => False

/-- The operation ends the motion of a busy channel in place. -/
def EndsInPlace (c : StepperChannel K δ) (operation : Operation K δ) : Prop :=
  operation.InPlace c ∧ c.mode ≠ .idle

/-- Everything that is not a motion command can only give the lock back. -/
theorem apply_yields (platform : Platform K δ) (motor : ι) (s : Locked ι K δ)
    {operation : Operation K δ} (h : operation.isMotion = false) :
    Locked.Yields motor s (operation.apply platform motor s) := by
  cases operation with
  | stop => exact Locked.stop_yields motor s
  | setPositionZero => exact Locked.setPositionZero_yields motor s
  | acknowledgeStepLoss => exact Locked.Yields.of_stance rfl ⟨rfl, rfl⟩
  | setSpeed fullStepHz => exact Locked.Yields.of_stance rfl (Locked.setSpeed_stance _ _)
  | setAccel accel => exact Locked.Yields.of_stance rfl (Locked.setAccel_stance _ _ _)
  | setRunCurrent aRms => exact Locked.Yields.of_stance rfl (Locked.setRunCurrent_stance _ _ _)
  | setMicrostep divisor => exact Locked.Yields.of_stance rfl (Locked.setMicrostep_stance _ _ _)
  | setEnabled enable => exact Locked.setEnabled_yields platform.hal motor s enable
  | tick dt now => exact Locked.tick_yields platform.hal platform.sqrt motor s dt now
  | pulse elapsed => exact Locked.pulse_yields platform.hal platform.sqrt motor s elapsed
  | driverChange after => exact Locked.Yields.of_stance rfl ⟨rfl, rfl⟩
  | _ => cases h

/-- A free lock is taken only by a motion command that is accepted and needs it. -/
theorem apply_engages (platform : Platform K δ) {motor : ι} {s : Locked ι K δ}
    {operation : Operation K δ} (hfree : s.lock.holder = none)
    (htaken : (operation.apply platform motor s).lock.holder ≠ none) : operation.Engages s.channel := by
  cases hmotion : operation.isMotion with
  | false => exact absurd ((apply_yields platform motor s hmotion).holder_eq_none hfree) htaken
  | true =>
    cases operation with
    | moveSteps delta => exact Locked.moveSteps_engages hfree htaken
    | moveToSteps absolute hold => exact Locked.moveToSteps_engages hfree htaken
    | moveMillimeters deltaMm =>
      simp only [apply, Locked.moveMillimeters] at htaken
      split at htaken
      · exact absurd hfree htaken
      case h_2 usteps husteps =>
        rw [(Locked.relabel_same _ _).1] at htaken
        exact ⟨usteps, husteps, Locked.moveSteps_engages hfree htaken⟩
    | moveToMillimeters absoluteMm hold =>
      simp only [apply, Locked.moveToMillimeters] at htaken
      split at htaken
      · exact absurd hfree htaken
      case h_2 usteps husteps =>
        rw [(Locked.relabel_same _ _).1] at htaken
        exact ⟨usteps, husteps, Locked.moveToSteps_engages hfree htaken⟩
    | rotate revolutions =>
      simp only [apply, Locked.rotate] at htaken
      split at htaken
      · exact absurd hfree htaken
      case isFalse hrev => exact ⟨not_le.mp hrev, Locked.moveSteps_engages hfree htaken⟩
    | home => exact Locked.home_engages hfree htaken
    | armPullCycle => exact Locked.armPullCycle_engages hfree htaken
    | _ => cases hmotion

/-- Every operation that does not end a busy channel's motion in place keeps the coupling. -/
theorem apply_keeps (platform : Platform K δ) (motor : ι) (s : Locked ι K δ) (operation : Operation K δ)
    (h : ¬ operation.EndsInPlace s.channel) :
    Locked.Keeps motor s (operation.apply platform motor s) := by
  have hidle : operation.InPlace s.channel → s.channel.mode = .idle :=
    fun hplace => not_not.mp fun hbusy => h ⟨hplace, hbusy⟩
  cases operation with
  | moveSteps delta => exact Locked.moveSteps_keeps motor s delta hidle
  | moveToSteps absolute hold => exact Locked.moveToSteps_keeps motor s absolute hold hidle
  | moveMillimeters deltaMm =>
    simp only [apply, Locked.moveMillimeters]
    split
    · exact Locked.Yields.keeps (Locked.Yields.of_stance rfl ⟨rfl, rfl⟩)
    case h_2 usteps husteps =>
      obtain ⟨hlock, hstance⟩ := Locked.relabel_same "cmd:MOVE_MM" (s.moveSteps motor usteps)
      exact (Locked.moveSteps_keeps motor s usteps fun hplace => hidle ⟨usteps, husteps, hplace⟩).trans
        (Locked.Yields.of_stance hlock hstance).keeps
  | moveToMillimeters absoluteMm hold =>
    simp only [apply, Locked.moveToMillimeters]
    split
    · exact Locked.Yields.keeps (Locked.Yields.of_stance rfl ⟨rfl, rfl⟩)
    case h_2 usteps husteps =>
      obtain ⟨hlock, hstance⟩ := Locked.relabel_same "cmd:BEND_MM" (s.moveToSteps motor usteps hold)
      exact (Locked.moveToSteps_keeps motor s usteps hold
        fun hplace => hidle ⟨usteps, husteps, hplace⟩).trans (Locked.Yields.of_stance hlock hstance).keeps
  | rotate revolutions =>
    simp only [apply, Locked.rotate]
    split
    · exact Locked.Yields.keeps (Locked.Yields.of_stance rfl ⟨rfl, rfl⟩)
    case isFalse hrev =>
      exact Locked.moveSteps_keeps motor s _ fun hplace => hidle ⟨not_le.mp hrev, hplace⟩
  | home => exact Locked.home_keeps motor s hidle
  | armPullCycle => exact Locked.armPullCycle_keeps motor s
  | _ => exact (apply_yields platform motor s rfl).keeps

/-- An operation that ends a busy channel's motion in place leaves it idle with the lock taken. -/
theorem apply_strands (platform : Platform K δ) {motor : ι} {s : Locked ι K δ}
    {operation : Operation K δ} (hcoupled : Locked.Coupled motor s)
    (h : operation.EndsInPlace s.channel) :
    (operation.apply platform motor s).channel.mode = .idle ∧
      (operation.apply platform motor s).lock.holder = some motor := by
  obtain ⟨hplace, hbusy⟩ := h
  cases operation with
  | moveSteps delta => exact Locked.moveSteps_strands hcoupled hplace hbusy
  | moveToSteps absolute hold => exact Locked.moveToSteps_strands hcoupled hplace hbusy
  | moveMillimeters deltaMm =>
    obtain ⟨usteps, husteps, hplace⟩ := hplace
    obtain ⟨hlock, hmode, -⟩ := Locked.relabel_same "cmd:MOVE_MM" (s.moveSteps motor usteps)
    obtain ⟨hidle, howner⟩ := Locked.moveSteps_strands hcoupled hplace hbusy
    simp only [apply, Locked.moveMillimeters, husteps]
    exact ⟨hmode.trans hidle, by rw [hlock, howner]⟩
  | moveToMillimeters absoluteMm hold =>
    obtain ⟨usteps, husteps, hplace⟩ := hplace
    obtain ⟨hlock, hmode, -⟩ := Locked.relabel_same "cmd:BEND_MM" (s.moveToSteps motor usteps hold)
    obtain ⟨hidle, howner⟩ := Locked.moveToSteps_strands hcoupled hplace hbusy
    simp only [apply, Locked.moveToMillimeters, husteps]
    exact ⟨hmode.trans hidle, by rw [hlock, howner]⟩
  | rotate revolutions =>
    obtain ⟨hrev, hplace⟩ := hplace
    simp only [apply, Locked.rotate, if_neg (not_le.mpr hrev)]
    exact Locked.moveSteps_strands hcoupled hplace hbusy
  | home => exact Locked.home_strands hcoupled hplace hbusy
  | _ => exact hplace.elim

end Operation

/-- Any number of channels with the lock they share. -/
structure Rig (ι K δ : Type*) where
  lock : MotionLock ι
  channels : ι → StepperChannel K δ

namespace Rig

/-- The rig as it is constructed, with any drivers or none. -/
def start (platform : Platform K δ) (cfg : ι → ChannelConfig K) (driver : ι → Option δ) : Rig ι K δ :=
  ⟨.free, fun motor => .new platform.hal (cfg motor) (driver motor)⟩

/-- One channel with the lock. -/
def locked (rig : Rig ι K δ) (motor : ι) : Locked ι K δ := ⟨rig.lock, rig.channels motor⟩

/-- Carry out an operation of one motor. -/
def step (platform : Platform K δ) (rig : Rig ι K δ) (input : ι × Operation K δ) : Rig ι K δ :=
  let after := input.2.apply platform input.1 (rig.locked input.1)
  ⟨after.lock, Function.update rig.channels input.1 after.channel⟩

/-- A channel owns the lock exactly when its mode is not idle. -/
def LockFollowsMotion (rig : Rig ι K δ) : Prop :=
  ∀ motor, rig.lock.holder = some motor ↔ (rig.channels motor).mode ≠ .idle

/-- Every channel is coupled to the lock. -/
def Inv (rig : Rig ι K δ) : Prop := ∀ motor, Locked.Coupled motor (rig.locked motor)

/-- At most one motor is busy, and the heaters are inhibited exactly while one is. -/
def Exclusive (rig : Rig ι K δ) : Prop :=
  (∀ first second, (rig.channels first).mode ≠ .idle → (rig.channels second).mode ≠ .idle →
    first = second) ∧
  (rig.lock.isActive = true ↔ ∃ motor, (rig.channels motor).mode ≠ .idle)

/-- When the lock follows the motion, motion is exclusive. -/
theorem LockFollowsMotion.exclusive {rig : Rig ι K δ} (h : rig.LockFollowsMotion) : rig.Exclusive := by
  refine ⟨fun first second hfirst hsecond => ?_, ?_⟩
  · have hholder := (h first).mpr hfirst
    rw [(h second).mpr hsecond] at hholder
    exact (Option.some.inj hholder).symm
  · rw [MotionLock.isActive, Option.isSome_iff_exists]
    exact exists_congr h

/-- A coupled rig's lock follows its motion. -/
theorem Inv.lockFollowsMotion {rig : Rig ι K δ} (h : rig.Inv) : rig.LockFollowsMotion :=
  fun motor => (h motor).mode.symm

/-- A coupled rig's lock follows its motion, which is exclusive. -/
theorem Inv.lockFollowsMotion_exclusive {rig : Rig ι K δ} (h : rig.Inv) :
    rig.LockFollowsMotion ∧ rig.Exclusive :=
  ⟨h.lockFollowsMotion, h.lockFollowsMotion.exclusive⟩

/-- A new rig is coupled. -/
theorem inv_start (platform : Platform K δ) (cfg : ι → ChannelConfig K) (driver : ι → Option δ) :
    (start platform cfg driver).Inv :=
  fun _ => ⟨by simp [start, locked, MotionLock.free, StepperChannel.new],
    by simp [start, locked, MotionLock.free, StepperChannel.new]⟩

/-- A step that does not end a busy channel's motion in place keeps the rig coupled. -/
theorem inv_step (platform : Platform K δ) (rig : Rig ι K δ) (input : ι × Operation K δ) (hinv : rig.Inv)
    (h : ¬ input.2.EndsInPlace (rig.channels input.1)) : (rig.step platform input).Inv := by
  obtain ⟨moved, operation⟩ := input
  obtain ⟨hmoved, hothers⟩ := Operation.apply_keeps platform moved (rig.locked moved) operation h
    (hinv moved)
  intro motor
  by_cases hmotor : motor = moved
  · subst hmotor
    simpa only [locked, step, Function.update_self] using hmoved
  · have hsame := hothers motor hmotor
    refine ⟨?_, ?_⟩
    · simp only [locked, step, Function.update_of_ne hmotor]
      exact (hinv motor).flag.trans hsame.symm
    · simp only [locked, step, Function.update_of_ne hmotor]
      exact (hinv motor).mode.trans hsame.symm

/-- A step that ends a busy channel's motion in place breaks the rule. -/
theorem not_lockFollowsMotion_step (platform : Platform K δ) (rig : Rig ι K δ)
    (input : ι × Operation K δ) (hinv : rig.Inv)
    (h : ¬ ¬ input.2.EndsInPlace (rig.channels input.1)) :
    ¬ ((rig.step platform input).LockFollowsMotion ∧ (rig.step platform input).Exclusive) := by
  obtain ⟨hidle, howner⟩ := Operation.apply_strands platform (hinv input.1) (not_not.mp h)
  rintro ⟨hfollows, -⟩
  refine (hfollows input.1).mp howner ?_
  simpa only [step, Function.update_self] using hidle

/-- The lock follows the motion, and motion is exclusive, in every state of a run exactly when no
operation of the run ends the motion of a busy channel in place. -/
theorem lockFollowsMotion_iff (platform : Platform K δ) (cfg : ι → ChannelConfig K)
    (driver : ι → Option δ) (inputs : List (ι × Operation K δ)) :
    Holds (step platform) (fun rig => rig.LockFollowsMotion ∧ rig.Exclusive)
        (start platform cfg driver) inputs ↔
      Meets (step platform) (fun rig input => ¬ input.2.EndsInPlace (rig.channels input.1))
        (start platform cfg driver) inputs :=
  holds_iff_meets (inv_step platform) (fun _ h => h.lockFollowsMotion_exclusive)
    (not_lockFollowsMotion_step platform) (inv_start platform cfg driver)

end Rig

/-- The driver of the bench: it counts pulses and obeys. -/
structure SimulatedStepperDriver where
  enabled : Bool
  lastDirForward : Bool
  microstep : ℤ
  runCurrentARms : ℚ
  pulses : ℕ

namespace SimulatedStepperDriver

/-- The calls of the simulated driver; what it does not override answers as the base class does. -/
def hal : StepperDriver ℚ SimulatedStepperDriver where
  enable d enable := (true, { d with enabled := enable })
  step d forward :=
    if ¬ d.enabled then (false, d)
    else (true, { d with lastDirForward := forward, pulses := d.pulses + 1 })
  setMicrostep d divisor := if divisor > 0 then { d with microstep := divisor } else d
  healthy _ := true
  activeCheck d := (true, d)
  setRunCurrent d aRms :=
    if aRms ≤ 0 then (.error "run current must be > 0", d)
    else (.ok (), { d with runCurrentARms := aRms })
  thermalState _ := 0
  lastError _ := ""
  poll d := (true, d)
  stepLossEvents _ := 0
  stepLossReason _ := ""
  takeStepLossStop d := (false, d)
  confirmTarget d := (true, d)
  noteStepRate d _ _ := d

/-- A bench platform. The square root is the whole part, which is exact on squares. -/
def platform : Platform ℚ SimulatedStepperDriver where
  hal := hal
  sqrt x := (Nat.sqrt ⌊x⌋.toNat : ℚ)
  shown _ := "5000"

end SimulatedStepperDriver

namespace Rig

/-- The source's default configuration, for both motors. -/
def benchConfig (_ : Fin 2) : ChannelConfig ℚ :=
  ⟨200, 100, 100, 200, 5000, 2, 4, 200000, 200, 5, false, false, 2000⟩

/-- A fresh simulated driver for each motor. -/
def benchDriver (_ : Fin 2) : Option SimulatedStepperDriver := some ⟨false, true, 1, 0, 0⟩

/-- Two motors as the bench has them. -/
def bench : Rig (Fin 2) ℚ SimulatedStepperDriver :=
  start SimulatedStepperDriver.platform benchConfig benchDriver

/-- The first motor of the bench. -/
def benchMotor : Fin 2 := 0

/-- Ten microsteps forward and, before the first of them, ten back. -/
def moveAndReturn : List (Fin 2 × Operation ℚ SimulatedStepperDriver) :=
  [(benchMotor, .setEnabled true), (benchMotor, .moveSteps 10), (benchMotor, .moveSteps (-10))]

/-- After the move and its return the motor is idle and still owns the lock: every heater and the
other motor are held off with nothing moving. -/
theorem moveAndReturn_strands :
    ¬ Holds (step SimulatedStepperDriver.platform) (fun rig => rig.LockFollowsMotion ∧ rig.Exclusive)
      bench moveAndReturn := by
  intro h
  have hlast := h.last.1 benchMotor
  have howner : (run (step SimulatedStepperDriver.platform) bench moveAndReturn).lock.holder =
      some benchMotor := by
    decide +kernel
  have hidle : ((run (step SimulatedStepperDriver.platform) bench moveAndReturn).channels benchMotor).mode =
      .idle := by
    decide +kernel
  exact hlast.mp howner hidle

end Rig

end Coatheal.Motion
