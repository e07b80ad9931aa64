import Coatheal.Motion.Rest

/-!
# The legs of a pull

An onlooker follows every pull from the moment it is armed: out to the pull
target, the hold there for as long as the configuration says, back to zero, and
rest. The driver writes down the steps it takes, so that what a tick adds to the
position can be compared with them.
-/

set_option linter.unusedSectionVars false

namespace Coatheal.Motion

open Coatheal.Library

variable {ι δ : Type*} [DecidableEq ι]

/-- A driver that writes down the steps it takes, with their directions. -/
def StepperDriver.recording {K δ : Type*} (hal : StepperDriver K δ) : StepperDriver K (δ × List Bool) where
  enable d enable := ((hal.enable d.1 enable).1, (hal.enable d.1 enable).2, d.2)
  step d forward :=
    ((hal.step d.1 forward).1, (hal.step d.1 forward).2,
      if (hal.step d.1 forward).1 then d.2 ++ [forward] else d.2)
  setMicrostep d divisor := (hal.setMicrostep d.1 divisor, d.2)
  healthy d := hal.healthy d.1
  activeCheck d := ((hal.activeCheck d.1).1, (hal.activeCheck d.1).2, d.2)
  setRunCurrent d aRms := ((hal.setRunCurrent d.1 aRms).1, (hal.setRunCurrent d.1 aRms).2, d.2)
  thermalState d := hal.thermalState d.1
  lastError d := hal.lastError d.1
  poll d := ((hal.poll d.1).1, (hal.poll d.1).2, d.2)
  stepLossEvents d := hal.stepLossEvents d.1
  stepLossReason d := hal.stepLossReason d.1
  takeStepLossStop d := ((hal.takeStepLossStop d.1).1, (hal.takeStepLossStop d.1).2, d.2)
  confirmTarget d := ((hal.confirmTarget d.1).1, (hal.confirmTarget d.1).2, d.2)
  noteStepRate d hz steady := (hal.noteStepRate d.1 hz steady, d.2)

/-- A platform whose drivers write down their steps. -/
def Platform.recording {K δ : Type*} (platform : Platform K δ) : Platform K (δ × List Bool) :=
  ⟨platform.hal.recording, platform.sqrt, platform.shown⟩

/-- What such a driver writes down are its steps. -/
theorem StepperDriver.recording_records {K δ : Type*} [Field K] [LinearOrder K] [FloorRing K]
    (hal : StepperDriver K δ) : Records hal.recording Prod.snd where
  enable _ _ := rfl
  stepTaken d forward h := by
    have h : (hal.step d.1 forward).1 = true := h
    simp only [recording, h, if_true]
  stepRefused d forward h := by
    have h : (hal.step d.1 forward).1 = false := h
    simp only [recording, h, Bool.false_eq_true, if_false]
  setMicrostep _ _ := rfl
  activeCheck _ := rfl
  poll _ := rfl
  takeStepLossStop _ := rfl
  confirmTarget _ := rfl
  noteStepRate _ _ _ := rfl

/-- A tick from this state moves the motor by exactly the steps its driver takes, all of them towards the
target and none past it. -/
def TickCounts (platform : Platform ℚ (δ × List Bool)) (motor : ι) (s : Locked ι ℚ (δ × List Bool)) : Prop :=
  ∀ dt now, let after := (s.tick platform.hal platform.sqrt motor dt now).channel
    ∃ steps : ℕ, (steps : ℤ) ≤ |s.channel.target - s.channel.position| ∧
      after.written Prod.snd =
        s.channel.written Prod.snd ++ List.replicate steps (Locked.towards s.channel) ∧
      after.position = s.channel.position + if Locked.towards s.channel then (steps : ℤ) else -(steps : ℤ)

/-- The leg of a pull an onlooker has seen a motor on. -/
inductive PullLeg where
  | none
  | out (target : ℤ)
  | hold (target : ℤ) (held : ℚ)
  | back
  | broken
deriving DecidableEq

namespace Operation

/-- The operation arms a pull. -/
def armsPull (motor : ι) (s : Locked ι ℚ δ) : Operation ℚ δ → Bool
  | .armPullCycle => (s.armPullCycle motor).1.isOk
  | _ => false

/-- The operation is another command that ends whatever the motor does. -/
def endsPull (platform : Platform ℚ δ) (motor : ι) (s : Locked ι ℚ δ) : Operation ℚ δ → Bool
  | .stop | .setPositionZero => true
  | .setEnabled enable => !enable && s.channel.driver.isSome
  | .moveSteps delta => accepted platform motor s (.moveSteps delta)
  | .moveToSteps absolute hold => accepted platform motor s (.moveToSteps absolute hold)
  | .moveMillimeters deltaMm => accepted platform motor s (.moveMillimeters deltaMm)
  | .moveToMillimeters absoluteMm hold => accepted platform motor s (.moveToMillimeters absoluteMm hold)
  | .rotate revolutions => accepted platform motor s (.rotate revolutions)
  | .home => accepted platform motor s .home
  | _ => false

/-- A place in the microsteps it is counted in after the operation. -/
def rescaled (platform : Platform ℚ δ) (motor : ι) (s : Locked ι ℚ δ) (place : ℤ) : Operation ℚ δ → ℤ
  | .setMicrostep divisor =>
    if accepted platform motor s (.setMicrostep divisor) then s.channel.rescale divisor place else place
  | _ => place

end Operation

namespace PullLeg

/-- The first leg of a pull that was armed: out to the pull target, or already in the hold there. -/
def armed (after : StepperChannel ℚ δ) : PullLeg :=
  let target := after.cfg.pullTravelFullSteps * after.microstep
  if after.mode = .moving ∧ after.target = target then .out target
  else if after.mode = .holding ∧ after.position = target then .hold target 0
  else .broken

/-- What the onlooker sees when a motor comes to rest: the end of the pull, if all of it is done. -/
def rest (allDone : Bool) (after : StepperChannel ℚ δ) : PullLeg :=
  if endedBySafetyAbort after || allDone && decide (after.position = 0) then .none else .broken

/-- What the onlooker sees after `elapsed` seconds in which no command came; the end of the pull and a
safety stop end it in order. -/
def watch (elapsed : ℚ) (after : StepperChannel ℚ δ) : PullLeg → PullLeg
  | .none => .none
  | .out target =>
    match after.mode with
    | .moving => if after.target = target then .out target else .broken
    | .holding => if after.position = target then .hold target 0 else .broken
    | .retracting => .broken
    | .idle => rest false after
  | .hold target held =>
    let long := decide (after.cfg.pullHoldS ≤ held + elapsed)
    match after.mode with
    | .moving => .broken
    | .holding => if after.position = target then .hold target (held + elapsed) else .broken
    | .retracting => if long = true ∧ after.target = 0 then .back else .broken
    | .idle => rest long after
  | .back =>
    match after.mode with
    | .moving | .holding => .broken
    | .retracting => if after.target = 0 then .back else .broken
    | .idle => rest true after
  | .broken => .broken

/-- The leg with its target in the microsteps after an operation. -/
def rescaled (scale : ℤ → ℤ) : PullLeg → PullLeg
  | .out target => .out (scale target)
  | .hold target held => .hold (scale target) held
  | leg => leg

/-- What the onlooker sees of an operation: a new pull, the end of one by another command, or the next
piece of one. -/
def follow (platform : Platform ℚ δ) (motor : ι) (s : Locked ι ℚ δ) (operation : Operation ℚ δ)
    (leg : PullLeg) : PullLeg :=
  let after := (operation.apply platform motor s).channel
  if operation.armsPull motor s then armed after
  else if operation.endsPull platform motor s then .none
  else (leg.rescaled fun place => operation.rescaled platform motor s place).watch (max 0 operation.duration) after

/-- What the onlooker relies on. -/
def Sure (c : StepperChannel ℚ δ) : PullLeg → Prop
  | .none => True
  | .out target => c.mode = .moving ∧ c.target = target ∧ 0 < c.holdRemainingS ∧
      c.cfg.pullHoldS ≤ c.holdRemainingS ∧ c.retractAfterHold = true ∧ c.retractTarget = 0
  | .hold target held => c.mode = .holding ∧ c.position = target ∧
      c.cfg.pullHoldS ≤ held + c.holdRemainingS ∧ c.retractAfterHold = true ∧ c.retractTarget = 0
  | .back => c.mode = .retracting ∧ c.target = 0
  | .broken => False

/-- A motor on the way out is seen there. -/
theorem watch_out_moving {target : ℤ} {after : StepperChannel ℚ δ} (elapsed : ℚ) (hmode : after.mode = .moving)
    (htarget : after.target = target) : (out target).watch elapsed after = .out target := by
  simp only [watch, hmode, htarget, if_true]

/-- A motor that holds at the target of the way out is seen in the hold. -/
theorem watch_out_holding {target : ℤ} {after : StepperChannel ℚ δ} (elapsed : ℚ) (hmode : after.mode = .holding)
    (hplace : after.position = target) : (out target).watch elapsed after = .hold target 0 := by
  simp only [watch, hmode, hplace, if_true]

/-- A motor that holds on is seen to. -/
theorem watch_hold_holding {target : ℤ} {held : ℚ} {after : StepperChannel ℚ δ} (elapsed : ℚ)
    (hmode : after.mode = .holding) (hplace : after.position = target) :
    (hold target held).watch elapsed after = .hold target (held + elapsed) := by
  simp only [watch, hmode, hplace, if_true]

/-- A motor that goes back after a hold that was long enough is seen on the way back. -/
theorem watch_hold_retracting {target : ℤ} {held elapsed : ℚ} {after : StepperChannel ℚ δ}
    (hmode : after.mode = .retracting) (hzero : after.target = 0) (hlong : after.cfg.pullHoldS ≤ held + elapsed) :
    (hold target held).watch elapsed after = .back := by
  simp only [watch, hmode, hzero, decide_eq_true hlong, and_self, if_true]

/-- A motor that rests at zero after a hold that was long enough has ended its pull. -/
theorem watch_hold_idle {target : ℤ} {held elapsed : ℚ} {after : StepperChannel ℚ δ} (hmode : after.mode = .idle)
    (hplace : after.position = 0) (hlong : after.cfg.pullHoldS ≤ held + elapsed) :
    (hold target held).watch elapsed after = .none := by
  simp only [watch, hmode, rest, hplace, decide_eq_true hlong, decide_true, Bool.and_self, Bool.or_true, if_true]

/-- A motor on the way back is seen there. -/
theorem watch_back_retracting {after : StepperChannel ℚ δ} (elapsed : ℚ) (hmode : after.mode = .retracting)
    (hzero : after.target = 0) : back.watch elapsed after = .back := by
  simp only [watch, hmode, hzero, if_true]

/-- A motor that rests at zero has ended its pull. -/
theorem watch_back_idle {after : StepperChannel ℚ δ} (elapsed : ℚ) (hmode : after.mode = .idle)
    (hplace : after.position = 0) : back.watch elapsed after = .none := by
  simp only [watch, hmode, rest, hplace, decide_true, Bool.and_self, Bool.or_true, if_true]

/-- Two states of a channel that are the same for a pull. -/
structure SamePull (c after : StepperChannel ℚ δ) : Prop where
  mode : after.mode = c.mode
  target : after.target = c.target
  position : after.position = c.position
  hold : after.holdRemainingS = c.holdRemainingS
  pullHoldS : after.cfg.pullHoldS = c.cfg.pullHoldS
  retractTarget : after.retractTarget = c.retractTarget
  retractAfterHold : after.retractAfterHold = c.retractAfterHold

/-- A channel on the same course with the same configured hold is the same for a pull. -/
theorem SamePull.of_course {c after : StepperChannel ℚ δ} (h : SameCourse c after)
    (hpull : after.cfg.pullHoldS = c.cfg.pullHoldS) : SamePull c after :=
  ⟨h.mode, h.target, h.position, h.hold, hpull, h.retractTarget, h.retractAfterHold⟩

/-- A channel with the same setting at the same place is the same for a pull. -/
theorem SamePull.of_setting {c after : StepperChannel ℚ δ} (h : SameSetting c after)
    (hposition : after.position = c.position) : SamePull c after :=
  ⟨h.mode, h.target, hposition, h.hold, by rw [h.cfg], h.retractTarget, h.retractAfterHold⟩

/-- A speed command changes nothing for a pull. -/
theorem samePull_setSpeed (c : StepperChannel ℚ δ) (hz : ℚ) : SamePull c (c.setSpeed hz).2 := by
  refine .of_course (Locked.setSpeed_course c hz) ?_
  unfold StepperChannel.setSpeed
  split
  · rfl
  · rfl

/-- Nor does an acceleration command. -/
theorem samePull_setAccel (shown : ℚ → String) (c : StepperChannel ℚ δ) (accel : Option ℚ) :
    SamePull c (c.setAccel shown accel).2 := by
  refine .of_course (Locked.setAccel_course shown c accel) ?_
  unfold StepperChannel.setAccel
  split
  · rfl
  split
  · rfl
  split
  · rfl
  · rfl

/-- Nor does a current command. -/
theorem samePull_setRunCurrent (hal : StepperDriver ℚ δ) (c : StepperChannel ℚ δ) (aRms : ℚ) :
    SamePull c (c.setRunCurrent hal aRms).2 := by
  refine .of_course (Locked.setRunCurrent_course hal c aRms) ?_
  unfold StepperChannel.setRunCurrent
  split
  · rfl
  · rfl

/-- Where nothing changes for a pull the onlooker is as sure as before. -/
theorem Sure.same {leg : PullLeg} {c after : StepperChannel ℚ δ} (h : leg.Sure c) (hsame : SamePull c after) :
    leg.Sure after := by
  unfold Sure at h ⊢
  rw [hsame.mode, hsame.target, hsame.position, hsame.hold, hsame.pullHoldS, hsame.retractTarget,
    hsame.retractAfterHold]
  exact h

/-- Seeing a leg that one is sure of, and no time gone, one stays with it. -/
theorem Sure.watch {leg : PullLeg} {c : StepperChannel ℚ δ} (h : leg.Sure c) : (leg.watch 0 c).Sure c := by
  cases leg with
  | none => trivial
  | out target =>
    rw [watch_out_moving 0 h.1 h.2.1]
    exact h
  | hold target held =>
    rw [watch_hold_holding 0 h.1 h.2.1, add_zero]
    exact h
  | back =>
    rw [watch_back_retracting 0 h.1 h.2]
    exact h
  | broken => exact h

/-- A safety stop ends whatever leg one was sure of. -/
theorem Sure.halted {leg : PullLeg} {c before after : StepperChannel ℚ δ} (h : leg.Sure c)
    (hhalted : Halted before after) (elapsed : ℚ) : (leg.watch elapsed after).Sure after := by
  cases leg with
  | none => trivial
  | out target =>
    simp only [PullLeg.watch, hhalted.mode, rest, hhalted.aborted, Bool.true_or, if_true]
    trivial
  | hold target held =>
    simp only [PullLeg.watch, hhalted.mode, rest, hhalted.aborted, Bool.true_or, if_true]
    trivial
  | back =>
    simp only [PullLeg.watch, hhalted.mode, rest, hhalted.aborted, Bool.true_or, if_true]
    trivial
  | broken => exact h

/-- The way out goes on, or turns into the hold at the target. -/
theorem tickMotion_out {target : ℤ} (hal : StepperDriver ℚ δ) (sqrt : ℚ → ℚ) (motor : ι) (s : Locked ι ℚ δ)
    (dt : ℚ) (h : (out target).Sure s.channel) :
    ((out target).watch dt (s.tickMotion hal sqrt motor dt).channel).Sure
      (s.tickMotion hal sqrt motor dt).channel := by
  obtain ⟨hmode, htarget, hpositive, hlong, hretract, hzero⟩ := h
  -- where the leg ends the hold begins
  have hholding {c after : StepperChannel ℚ δ} (hc : c.mode = .moving)
      (hhold : c.holdRemainingS = s.channel.holdRemainingS) (hpull : c.cfg = s.channel.cfg)
      (hback : c.retractAfterHold = true) (hto : c.retractTarget = 0)
      (hended : SameSetting (Locked.legEnded c) after) (hplace : after.position = target) :
      ((out target).watch dt after).Sure after := by
    unfold Locked.legEnded at hended
    rw [if_pos ⟨hc, hhold ▸ hpositive⟩] at hended
    rw [watch_out_holding dt hended.mode hplace]
    refine ⟨hended.mode, hplace, ?_, hended.retractAfterHold.trans hback, hended.retractTarget.trans hto⟩
    rw [hended.cfg, hended.hold, zero_add]
    dsimp only
    rw [hpull, hhold]
    exact hlong
  unfold Locked.tickMotion
  rw [hmode]
  dsimp only
  split
  case isTrue hplace =>
    obtain ⟨hended, hnone⟩ := Locked.endLeg_setting hal motor
      ⟨s.lock, { s.channel with moving := false, currentStepHz := 0 }⟩ true
    exact hholding (c := { s.channel with moving := false, currentStepHz := 0 }) hmode rfl rfl hretract hzero
      hended ((hnone.place.trans hplace).trans htarget)
  · split
    · rw [@watch_out_moving _ target { s.channel with moving := true } dt hmode htarget]
      exact ⟨hmode, htarget, hpositive, hlong, hretract, hzero⟩
    · obtain ⟨-, -, -, -, ⟨-, hsame⟩ | ⟨hplace, hended⟩ | hstopped⟩ :=
        Locked.tickPulses_cases hal sqrt motor s dt
      · have hafterMode := hsame.mode.trans hmode
        have hafterTarget := hsame.target.trans htarget
        rw [watch_out_moving dt hafterMode hafterTarget]
        refine ⟨hafterMode, hafterTarget, ?_, ?_, hsame.retractAfterHold.trans hretract,
          hsame.retractTarget.trans hzero⟩
        · rw [hsame.hold]
          exact hpositive
        · rw [hsame.hold, hsame.cfg]
          exact hlong
      · exact hholding (c := Locked.resting s.channel) hmode rfl rfl hretract hzero hended (hplace.trans htarget)
      · have hsure : (out target).Sure s.channel := ⟨hmode, htarget, hpositive, hlong, hretract, hzero⟩
        exact Sure.halted hsure hstopped.toHalted dt

/-- The hold goes on, or it was long enough and turns into the way back or the end at zero. -/
theorem tickMotion_hold {target : ℤ} {held : ℚ} (hal : StepperDriver ℚ δ) (sqrt : ℚ → ℚ) (motor : ι)
    (s : Locked ι ℚ δ) (dt : ℚ) (h : (hold target held).Sure s.channel) :
    ((hold target held).watch dt (s.tickMotion hal sqrt motor dt).channel).Sure
      (s.tickMotion hal sqrt motor dt).channel := by
  obtain ⟨hmode, hplace, hlong, hretract, hzero⟩ := h
  have hholding : s.tickMotion hal sqrt motor dt = s.tickHolding motor dt := by
    unfold Locked.tickMotion
    rw [hmode]
  rw [hholding]
  obtain ⟨hnone, ⟨hover, hend⟩ | ⟨hmore, hsame⟩⟩ := Locked.tickHolding_cases hal motor s dt true
  · have henough : s.channel.cfg.pullHoldS ≤ held + dt := by linarith
    rcases hend with ⟨-, -, hsame⟩ | ⟨-, hback, hsame⟩ | ⟨hstays, -⟩
    · have hafterTarget := hsame.target.trans hzero
      rw [watch_hold_retracting hsame.mode hafterTarget (by rwa [hsame.cfg])]
      exact ⟨hsame.mode, hafterTarget⟩
    · rw [watch_hold_idle hsame.mode ((hnone.place.trans hback).trans hzero) (by rwa [hsame.cfg])]
      trivial
    · rw [hretract] at hstays
      cases hstays
  · have hafterMode := hsame.mode.trans hmode
    have hafterPlace := hnone.place.trans hplace
    rw [watch_hold_holding dt hafterMode hafterPlace]
    refine ⟨hafterMode, hafterPlace, ?_, hsame.retractAfterHold.trans hretract, hsame.retractTarget.trans hzero⟩
    rw [hsame.hold, hsame.cfg]
    dsimp only
    linarith

/-- The way back goes on, or ends at zero. -/
theorem tickMotion_back (hal : StepperDriver ℚ δ) (sqrt : ℚ → ℚ) (motor : ι) (s : Locked ι ℚ δ) (dt : ℚ)
    (h : back.Sure s.channel) :
    (back.watch dt (s.tickMotion hal sqrt motor dt).channel).Sure (s.tickMotion hal sqrt motor dt).channel := by
  obtain ⟨hmode, hzero⟩ := h
  have hhome {c after : StepperChannel ℚ δ} (hc : c.mode = .retracting)
      (hended : SameSetting (Locked.legEnded c) after) (hplace : after.position = 0) :
      (back.watch dt after).Sure after := by
    unfold Locked.legEnded at hended
    rw [if_neg (by simp [hc]), if_pos hc] at hended
    rw [watch_back_idle dt hended.mode hplace]
    trivial
  unfold Locked.tickMotion
  rw [hmode]
  dsimp only
  split
  case isTrue hplace =>
    obtain ⟨hended, hnone⟩ := Locked.endLeg_setting hal motor
      ⟨s.lock, { s.channel with moving := false, currentStepHz := 0 }⟩ true
    exact hhome (c := { s.channel with moving := false, currentStepHz := 0 }) hmode hended
      ((hnone.place.trans hplace).trans hzero)
  · split
    · rw [@watch_back_retracting _ { s.channel with moving := true } dt hmode hzero]
      exact ⟨hmode, hzero⟩
    · obtain ⟨-, -, -, -, ⟨-, hsame⟩ | ⟨hplace, hended⟩ | hstopped⟩ :=
        Locked.tickPulses_cases hal sqrt motor s dt
      · have hafterMode := hsame.mode.trans hmode
        have hafterTarget := hsame.target.trans hzero
        rw [watch_back_retracting dt hafterMode hafterTarget]
        exact ⟨hafterMode, hafterTarget⟩
      · exact hhome (c := Locked.resting s.channel) hmode hended (hplace.trans hzero)
      · have hsure : back.Sure s.channel := ⟨hmode, hzero⟩
        exact Sure.halted hsure hstopped.toHalted dt

/-- A tick keeps the onlooker sure. -/
theorem tick_sure {leg : PullLeg} (hal : StepperDriver ℚ δ) (sqrt : ℚ → ℚ) (motor : ι) (s : Locked ι ℚ δ)
    (dt : ℚ) (now : ℤ) (h : leg.Sure s.channel) :
    (leg.watch (max 0 dt) (s.tick hal sqrt motor dt now).channel).Sure (s.tick hal sqrt motor dt now).channel := by
  by_cases hdt : 0 < dt
  · rw [max_eq_right hdt.le]
    obtain ⟨hstopped, -⟩ | ⟨cool, hsame, hnone, htick⟩ := Locked.tick_cases hal sqrt motor s now hdt true
    · exact h.halted hstopped.toHalted dt
    · rw [htick]
      have h := h.same (.of_setting hsame hnone.place)
      cases leg with
      | none => trivial
      | out target => exact tickMotion_out hal sqrt motor cool dt h
      | hold target held => exact tickMotion_hold hal sqrt motor cool dt h
      | back => exact tickMotion_back hal sqrt motor cool dt h
      | broken => exact h
  · have hdt := not_lt.mp hdt
    rw [max_eq_left hdt]
    unfold Locked.tick
    rw [if_pos hdt]
    exact h.watch

/-- A pulse keeps the onlooker sure. -/
theorem pulse_sure {leg : PullLeg} (hal : StepperDriver ℚ δ) (sqrt : ℚ → ℚ) (motor : ι) (s : Locked ι ℚ δ)
    (elapsed : ℚ) (h : leg.Sure s.channel) :
    (leg.watch 0 (s.pulse hal sqrt motor elapsed).channel).Sure (s.pulse hal sqrt motor elapsed).channel := by
  obtain hsame | ⟨hbusy, -, -, -, hsame | hhalted⟩ := Locked.pulse_cases hal sqrt motor s elapsed
  · rw [hsame]
    exact h.watch
  · cases leg with
    | none => trivial
    | out target =>
      obtain ⟨hmode, htarget, hpositive, hlong, hretract, hzero⟩ := h
      have hafterMode := hsame.mode.trans hmode
      have hafterTarget := hsame.target.trans htarget
      rw [watch_out_moving 0 hafterMode hafterTarget]
      refine ⟨hafterMode, hafterTarget, ?_, ?_, hsame.retractAfterHold.trans hretract,
        hsame.retractTarget.trans hzero⟩
      · rw [hsame.hold]
        exact hpositive
      · rw [hsame.hold, hsame.cfg]
        exact hlong
    | hold target held =>
      rw [h.1] at hbusy
      rcases hbusy with hbusy | hbusy
      all_goals cases hbusy
    | back =>
      have hafterMode := hsame.mode.trans h.1
      have hafterTarget := hsame.target.trans h.2
      rw [watch_back_retracting 0 hafterMode hafterTarget]
      exact ⟨hafterMode, hafterTarget⟩
    | broken => exact h
  · exact h.halted hhalted 0

/-- A change of the divisor keeps the onlooker sure, with the target counted anew. -/
theorem setMicrostep_sure {leg : PullLeg} (hal : StepperDriver ℚ δ) {c : StepperChannel ℚ δ} {divisor : ℤ}
    (h : leg.Sure c) :
    ((leg.rescaled fun place => if (c.setMicrostep hal divisor).1.isOk then c.rescale divisor place else place).watch
      0 (c.setMicrostep hal divisor).2).Sure (c.setMicrostep hal divisor).2 := by
  have hpull : (c.setMicrostep hal divisor).2.cfg.pullHoldS = c.cfg.pullHoldS := by
    unfold StepperChannel.setMicrostep
    split
    · rfl
    dsimp only
    split
    · rfl
    split
    · rfl
    · rfl
  by_cases haccepted : (c.setMicrostep hal divisor).1.isOk = true
  · have hcourse := Locked.setMicrostep_accepted haccepted
    have hhome : c.rescale divisor 0 = 0 := by
      unfold StepperChannel.rescale
      split
      · norm_num [llround]
      · rfl
    simp only [haccepted, if_true]
    refine Sure.watch ?_
    cases leg with
    | none => trivial
    | out target =>
      obtain ⟨hmode, rfl, hpositive, hlong, hretract, hzero⟩ := h
      refine ⟨hcourse.mode.trans hmode, hcourse.target, ?_, ?_, hcourse.retractAfterHold.trans hretract, ?_⟩
      · rw [hcourse.hold]
        exact hpositive
      · rw [hcourse.hold, hpull]
        exact hlong
      · rw [hcourse.retractTarget]
        dsimp only
        rw [hzero, hhome]
    | hold target held =>
      obtain ⟨hmode, rfl, hlong, hretract, hzero⟩ := h
      refine ⟨hcourse.mode.trans hmode, hcourse.position, ?_, hcourse.retractAfterHold.trans hretract, ?_⟩
      · rw [hcourse.hold, hpull]
        exact hlong
      · rw [hcourse.retractTarget]
        dsimp only
        rw [hzero, hhome]
    | back =>
      refine ⟨hcourse.mode.trans h.1, ?_⟩
      rw [hcourse.target]
      dsimp only
      rw [h.2, hhome]
    | broken => exact h
  · have hsame : (leg.rescaled fun place =>
        if (c.setMicrostep hal divisor).1.isOk then c.rescale divisor place else place) = leg := by
      cases leg with
      | out target => simp only [PullLeg.rescaled, haccepted, Bool.false_eq_true, if_false]
      | hold target held => simp only [PullLeg.rescaled, haccepted, Bool.false_eq_true, if_false]
      | _ => rfl
    rw [hsame]
    exact Sure.watch (h.same (.of_course (Locked.setMicrostep_refused haccepted) hpull))

/-- A motor whose pull was armed is on its way out with a hold to come, or in the hold already. -/
theorem armed_sure {motor : ι} {s : Locked ι ℚ δ} (harmed : (s.armPullCycle motor).1.isOk = true)
    (hok : 0 < s.channel.cfg.pullHoldS ∨
      s.channel.position = s.channel.cfg.pullTravelFullSteps * s.channel.microstep) :
    (armed (s.armPullCycle motor).2.channel).Sure (s.armPullCycle motor).2.channel := by
  unfold Locked.armPullCycle at harmed ⊢
  split at harmed
  · cases harmed
  case isFalse henabled =>
    rw [if_neg henabled]
    split at harmed
    · cases harmed
    case h_2 taken hacquire =>
      dsimp only at harmed ⊢
      split at harmed
      · cases harmed
      case isFalse hlimit =>
        rw [if_neg hlimit]
        unfold armed
        by_cases hplace : s.channel.position = s.channel.cfg.pullTravelFullSteps * s.channel.microstep
        · simp only [hplace, ne_eq, not_true_eq_false, if_false, reduceCtorEq, false_and, and_self, if_true]
          exact ⟨rfl, rfl, (zero_add _).ge, rfl, rfl⟩
        · simp only [hplace, ne_eq, not_false_eq_true, if_true, and_self]
          exact ⟨rfl, rfl, hok.resolve_right hplace, le_rfl, rfl, rfl⟩

/-- A pull that was refused changes nothing for one under way. -/
theorem refusedPull_sure {leg : PullLeg} {motor : ι} {s : Locked ι ℚ δ}
    (hrefused : (s.armPullCycle motor).1.isOk = false) (h : leg.Sure s.channel) :
    leg.Sure (s.armPullCycle motor).2.channel := by
  unfold Locked.armPullCycle at hrefused ⊢
  split
  · exact h
  case isFalse henabled =>
    rw [if_neg henabled] at hrefused
    split
    · exact h
    case h_2 taken hacquire =>
      rw [hacquire] at hrefused
      dsimp only at hrefused ⊢
      split
      · -- the retract is set before the refusal, to what it is in a pull
        cases leg with
        | none => trivial
        | out target =>
          obtain ⟨hmode, htarget, hpositive, hlong, -, -⟩ := h
          exact ⟨hmode, htarget, hpositive, hlong, rfl, rfl⟩
        | hold target held =>
          obtain ⟨hmode, hplace, hlong, -, -⟩ := h
          exact ⟨hmode, hplace, hlong, rfl, rfl⟩
        | back => exact h
        | broken => exact h
      case isFalse hlimit =>
        rw [if_neg hlimit] at hrefused
        cases hrefused

end PullLeg

namespace Operation

/-- A move that is not accepted leaves the channel as it was. -/
theorem apply_refused (platform : Platform ℚ δ) (motor : ι) (s : Locked ι ℚ δ) {operation : Operation ℚ δ}
    (hmotion : operation.isMotion = true) (harms : operation ≠ .armPullCycle)
    (hrefused : operation.accepted platform motor s = false) :
    (operation.apply platform motor s).channel = s.channel := by
  have hsame {place : ℤ} {hold : ℚ} {reply : Except String Unit × Locked ι ℚ δ}
      (hresult : Locked.MoveResult ⟨0, 0, 0, false⟩ s place hold reply) (hreply : reply.1.isOk = false) :
      reply.2.channel = s.channel := by
    rcases hresult with ⟨-, hsame⟩ | ⟨hok, -⟩
    · exact hsame
    · rw [hok] at hreply
      cases hreply
  cases operation with
  | moveSteps delta => exact hsame (Locked.moveSteps_result motor s delta le_rfl) hrefused
  | moveToSteps absolute hold => exact hsame (Locked.moveToSteps_result motor s absolute hold le_rfl) hrefused
  | moveMillimeters deltaMm =>
    simp only [accepted, apply, Locked.moveMillimeters] at hrefused ⊢
    split
    · rfl
    case h_2 usteps husteps =>
      rw [husteps] at hrefused
      exact hsame ((Locked.moveSteps_result motor s usteps le_rfl).relabel _) hrefused
  | moveToMillimeters absoluteMm hold =>
    simp only [accepted, apply, Locked.moveToMillimeters] at hrefused ⊢
    split
    · rfl
    case h_2 usteps husteps =>
      rw [husteps] at hrefused
      exact hsame ((Locked.moveToSteps_result motor s usteps hold le_rfl).relabel _) hrefused
  | rotate revolutions =>
    simp only [accepted, apply, Locked.rotate] at hrefused ⊢
    split
    · rfl
    case isFalse hrev =>
      rw [if_neg hrev] at hrefused
      exact hsame (Locked.moveSteps_result motor s _ le_rfl) hrefused
  | home => exact hsame (Locked.home_result motor s le_rfl) hrefused
  | armPullCycle => exact absurd rfl harms
  | _ => cases hmotion

/-- The operation arms no pull that has a way to go and no hold. -/
def ArmsWithHold (motor : ι) (s : Locked ι ℚ δ) (operation : Operation ℚ δ) : Prop :=
  operation.armsPull motor s = true → 0 < s.channel.cfg.pullHoldS ∨
    s.channel.position = s.channel.cfg.pullTravelFullSteps * s.channel.microstep

/-- Whether a pull has a hold or no way to go can be decided. -/
instance (motor : ι) (s : Locked ι ℚ δ) (operation : Operation ℚ δ) :
    Decidable (operation.ArmsWithHold motor s) :=
  inferInstanceAs (Decidable (_ → _ ∨ _))

end Operation

namespace PullLeg

/-- An operation keeps the onlooker sure, unless it arms a pull without a hold. -/
theorem follow_sure {leg : PullLeg} (platform : Platform ℚ δ) (motor : ι) (s : Locked ι ℚ δ)
    (operation : Operation ℚ δ) (h : leg.Sure s.channel) (hok : operation.ArmsWithHold motor s) :
    (leg.follow platform motor s operation).Sure (operation.apply platform motor s).channel := by
  have hplain : leg.rescaled (fun place => place) = leg := by
    cases leg with
    | _ => rfl
  have hstays {after : StepperChannel ℚ δ} (hsame : SamePull s.channel after) : (leg.watch 0 after).Sure after :=
    (h.same hsame).watch
  unfold follow
  by_cases harms : operation.armsPull motor s = true
  · rw [if_pos harms]
    cases operation with
    | armPullCycle => exact armed_sure harms (hok harms)
    | _ => cases harms
  rw [if_neg harms]
  by_cases hends : operation.endsPull platform motor s = true
  · rw [if_pos hends]
    trivial
  rw [if_neg hends]
  have hmove (hmotion : operation.isMotion = true) (hother : operation ≠ .armPullCycle)
      (hscale : (fun place => operation.rescaled platform motor s place) = fun place => place)
      (hduration : operation.duration = 0)
      (hrefused : operation.accepted platform motor s = false) :
      ((leg.rescaled fun place => operation.rescaled platform motor s place).watch (max 0 operation.duration)
        (operation.apply platform motor s).channel).Sure (operation.apply platform motor s).channel := by
    rw [hscale, hplain, hduration, max_self, Operation.apply_refused platform motor s hmotion hother hrefused]
    exact h.watch
  cases operation with
  | moveSteps delta => exact hmove rfl (by simp) rfl rfl (Bool.eq_false_iff.mpr hends)
  | moveToSteps absolute hold => exact hmove rfl (by simp) rfl rfl (Bool.eq_false_iff.mpr hends)
  | moveMillimeters deltaMm => exact hmove rfl (by simp) rfl rfl (Bool.eq_false_iff.mpr hends)
  | moveToMillimeters absoluteMm hold => exact hmove rfl (by simp) rfl rfl (Bool.eq_false_iff.mpr hends)
  | rotate revolutions => exact hmove rfl (by simp) rfl rfl (Bool.eq_false_iff.mpr hends)
  | home => exact hmove rfl (by simp) rfl rfl (Bool.eq_false_iff.mpr hends)
  | stop => exact absurd rfl hends
  | setPositionZero => exact absurd rfl hends
  | armPullCycle =>
    simp only [Operation.rescaled, hplain, Operation.duration, max_self]
    exact (refusedPull_sure (Bool.eq_false_iff.mpr harms) h).watch
  | tick dt now =>
    simp only [Operation.rescaled, hplain, Operation.duration]
    exact tick_sure platform.hal platform.sqrt motor s dt now h
  | pulse elapsed =>
    simp only [Operation.rescaled, hplain, Operation.duration, max_self]
    exact pulse_sure platform.hal platform.sqrt motor s elapsed h
  | setMicrostep divisor =>
    simp only [Operation.rescaled, Operation.accepted, Operation.duration, max_self]
    exact setMicrostep_sure platform.hal h
  | setEnabled enable =>
    simp only [Operation.rescaled, hplain, Operation.duration, max_self, Operation.apply, Locked.setEnabled]
    split
    · exact h.watch
    case h_2 d hdriver =>
      have henable : enable = true := by
        simp only [Operation.endsPull, hdriver, Option.isSome_some, Bool.and_true, Bool.not_eq_true'] at hends
        simpa using hends
      rw [if_neg (not_not.mpr henable)]
      split
      · exact hstays ⟨rfl, rfl, rfl, rfl, rfl, rfl, rfl⟩
      · exact hstays ⟨rfl, rfl, rfl, rfl, rfl, rfl, rfl⟩
  | acknowledgeStepLoss =>
    simp only [Operation.rescaled, hplain, Operation.duration, max_self]
    exact hstays ⟨rfl, rfl, rfl, rfl, rfl, rfl, rfl⟩
  | setSpeed fullStepHz =>
    simp only [Operation.rescaled, hplain, Operation.duration, max_self]
    exact hstays (samePull_setSpeed s.channel fullStepHz)
  | setAccel accel =>
    simp only [Operation.rescaled, hplain, Operation.duration, max_self]
    exact hstays (samePull_setAccel platform.shown s.channel accel)
  | setRunCurrent aRms =>
    simp only [Operation.rescaled, hplain, Operation.duration, max_self]
    exact hstays (samePull_setRunCurrent platform.hal s.channel aRms)
  | driverChange after =>
    simp only [Operation.rescaled, hplain, Operation.duration, max_self]
    exact hstays ⟨rfl, rfl, rfl, rfl, rfl, rfl, rfl⟩

end PullLeg

/-- A tick of any channel moves its motor by exactly the steps its driver takes. -/
theorem tickCounts (platform : Platform ℚ δ) (motor : ι) (s : Locked ι ℚ (δ × List Bool)) :
    TickCounts platform.recording motor s := by
  intro dt now after
  obtain ⟨steps, hremaining, hstepped⟩ :=
    Locked.tick_steps platform.recording.hal platform.recording.sqrt motor s dt now
  exact ⟨steps, hremaining, hstepped.written _ platform.hal.recording_records, hstepped.position⟩

/-- A rig with what an onlooker has seen of the pulls of each motor. -/
structure Pulls (ι δ : Type*) where
  rig : Rig ι ℚ δ
  leg : ι → PullLeg

namespace Pulls

/-- The rig as it is constructed, with no pull under way. -/
def start (platform : Platform ℚ δ) (cfg : ι → ChannelConfig ℚ) (driver : ι → Option δ) : Pulls ι δ :=
  ⟨.start platform cfg driver, fun _ => .none⟩

/-- Carry out an operation of one motor before the eyes of the onlooker. -/
def step (platform : Platform ℚ δ) (s : Pulls ι δ) (input : ι × Operation ℚ δ) : Pulls ι δ :=
  ⟨s.rig.step platform input,
    Function.update s.leg input.1 ((s.leg input.1).follow platform input.1 (s.rig.locked input.1) input.2)⟩

/-- No pull has left out a leg or cut it short, and every tick moves every motor by the steps its driver
takes. -/
def InOrder (platform : Platform ℚ (δ × List Bool)) (s : Pulls ι (δ × List Bool)) : Prop :=
  ∀ motor, s.leg motor ≠ .broken ∧ TickCounts platform motor (s.rig.locked motor)

/-- In every state of a run that arms no pull with a way to go and without a hold, every pull has gone its
legs in order, and every tick moves every motor by the steps its driver takes. -/
theorem inOrder_of_hold (platform : Platform ℚ δ) (cfg : ι → ChannelConfig ℚ)
    (driver : ι → Option (δ × List Bool)) (inputs : List (ι × Operation ℚ (δ × List Bool)))
    (hok : Meets (step platform.recording) (fun s input => input.2.ArmsWithHold input.1 (s.rig.locked input.1))
      (start platform.recording cfg driver) inputs) :
    Holds (step platform.recording) (InOrder platform.recording) (start platform.recording cfg driver) inputs := by
  refine @holds_of_meets _ _ _ _ (fun s => ∀ motor, (s.leg motor).Sure (s.rig.channels motor)) _
    (fun s input h hok motor => ?_) (fun s h motor => ⟨fun hbroken => ?_, tickCounts platform motor _⟩) _ _
    (fun _ => trivial) hok
  · by_cases hmotor : motor = input.1
    · subst hmotor
      simp only [step, Rig.step, Function.update_self]
      exact PullLeg.follow_sure platform.recording input.1 (s.rig.locked input.1) input.2 (h input.1) hok
    · simpa only [step, Rig.step, Function.update_of_ne hmotor] using h motor
  · have hsure := h motor
    rw [hbroken] at hsure
    exact hsure

/-- The bench with a pull of one full step and a hold. -/
def pullConfig (hold : ℚ) (motor : Fin 2) : ChannelConfig ℚ :=
  { Rig.benchConfig motor with pullTravelFullSteps := 1, pullHoldS := hold }

/-- A fresh simulated driver for each motor, with nothing written down yet. -/
def pullDriver (motor : Fin 2) : Option (SimulatedStepperDriver × List Bool) :=
  (Rig.benchDriver motor).map fun driver => (driver, [])

/-- The bench before a pull with a hold. -/
def pullBench (hold : ℚ) : Pulls (Fin 2) (SimulatedStepperDriver × List Bool) :=
  start SimulatedStepperDriver.platform.recording (pullConfig hold) pullDriver

/-- A pull of the first motor, and four ticks of a second. -/
def onePull : List (Fin 2 × Operation ℚ (SimulatedStepperDriver × List Bool)) :=
  [(Rig.benchMotor, .setEnabled true), (Rig.benchMotor, .armPullCycle), (Rig.benchMotor, .tick 1 0),
    (Rig.benchMotor, .tick 1 0), (Rig.benchMotor, .tick 1 0), (Rig.benchMotor, .tick 1 0)]

/-- With a hold of two seconds the pull goes out, holds for two ticks and goes back. -/
theorem inOrder_onePull :
    Meets (step SimulatedStepperDriver.platform.recording)
        (fun s input => input.2.ArmsWithHold input.1 (s.rig.locked input.1)) (pullBench 2) onePull ∧
      Holds (step SimulatedStepperDriver.platform.recording) (InOrder SimulatedStepperDriver.platform.recording)
        (pullBench 2) onePull :=
  have hok : Meets (step SimulatedStepperDriver.platform.recording)
      (fun s input => input.2.ArmsWithHold input.1 (s.rig.locked input.1)) (pullBench 2) onePull := by
    decide +kernel
  ⟨hok, inOrder_of_hold SimulatedStepperDriver.platform (pullConfig 2) pullDriver onePull hok⟩

/-- With a hold of zero the pull ends where it went to: the motor rests at the pull target, and neither the
hold nor the way back is gone. -/
theorem onePull_ends_out :
    ¬ Holds (step SimulatedStepperDriver.platform.recording) (InOrder SimulatedStepperDriver.platform.recording)
        (pullBench 0) onePull ∧
      ((run (step SimulatedStepperDriver.platform.recording) (pullBench 0) onePull).rig.channels
        Rig.benchMotor).mode = .idle ∧
      ((run (step SimulatedStepperDriver.platform.recording) (pullBench 0) onePull).rig.channels
        Rig.benchMotor).position = 4 := by
  refine ⟨fun h => ?_, by decide +kernel, by decide +kernel⟩
  exact (h.last Rig.benchMotor).1 (by decide +kernel)

end Pulls

end Coatheal.Motion
