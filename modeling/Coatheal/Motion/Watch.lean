import Coatheal.Motion.Hold

/-!
# What spoils a step

The operations and faults that let a motor rest at the target of a step before
the hold is over: a stop or a disable there, a fault of the driver there, a move
to the target with a shorter hold, a pull that ends there, and a change of the
count that puts the target where the motor is. Everything else keeps the step
tracked, for every motor of a rig and over whole runs.
-/

set_option linter.unusedSectionVars false

namespace Coatheal.Motion

open Coatheal.Library

variable {ι δ : Type*} [DecidableEq ι]

/-- A position in the microsteps of another divisor. -/
def StepperChannel.rescale (c : StepperChannel ℚ δ) (divisor x : ℤ) : ℤ :=
  if c.microstep ≠ divisor ∧ c.microstep > 0 then
    llround ((x : ℚ) * ((divisor : ℚ) / (c.microstep : ℚ)))
  else x

namespace Operation

/-- The reply of the operations that may be refused. -/
def accepted (platform : Platform ℚ δ) (motor : ι) (s : Locked ι ℚ δ) : Operation ℚ δ → Bool
  | .moveSteps delta => (s.moveSteps motor delta).1.isOk
  | .moveToSteps absolute hold => (s.moveToSteps motor absolute hold).1.isOk
  | .moveMillimeters deltaMm => (s.moveMillimeters motor deltaMm).1.isOk
  | .moveToMillimeters absoluteMm hold => (s.moveToMillimeters motor absoluteMm hold).1.isOk
  | .rotate revolutions => (s.rotate motor revolutions).1.isOk
  | .home => (s.home motor).1.isOk
  | .setMicrostep divisor => (s.channel.setMicrostep platform.hal divisor).1.isOk
  | _ => true

/-- Where a move goes, and how long it holds there. -/
def heading (c : StepperChannel ℚ δ) : Operation ℚ δ → Option (ℤ × ℚ)
  | .moveSteps delta => some (wrap64 (c.target + delta), 0)
  | .moveToSteps absolute hold => some (absolute, hold)
  | .moveMillimeters deltaMm =>
    (Locked.ustepsOf c deltaMm).toOption.map fun usteps => (wrap64 (c.target + usteps), 0)
  | .moveToMillimeters absoluteMm hold =>
    (Locked.ustepsOf c absoluteMm).toOption.map fun usteps => (usteps, hold)
  | .rotate revolutions => some (wrap64 (c.target + Locked.ustepsOfRevolutions c revolutions), 0)
  | .home => some (0, 0)
  | _ => none

/-- The time an operation stands for. -/
def duration : Operation ℚ δ → ℚ
  | .tick dt _ => dt
  | _ => 0

end Operation

namespace StepWatch

/-- What the onlooker knows after an operation. A position that is declared zero is nowhere the motor
has gone to. -/
def seenBy (w : StepWatch) (operation : Operation ℚ δ) (c after : StepperChannel ℚ δ) : StepWatch :=
  match operation with
  | .setPositionZero => { w with held := 0 }
  | operation => w.seen operation.duration c after

/-- The heading is the target of a step for less than its hold. -/
def Shortens (w : StepWatch) : Option (ℤ × ℚ) → Prop
  | none => False
  | some (place, hold) => place = w.target ∧ hold < w.hold

/-- Headings can be compared with a step. -/
instance (w : StepWatch) : (heading : Option (ℤ × ℚ)) → Decidable (w.Shortens heading)
  | none => inferInstanceAs (Decidable False)
  | some (_, _) => inferInstanceAs (Decidable (_ ∧ _))

/-- An operation that may let the motor rest at the target of a step whose hold is not over. -/
def Spoils (w : StepWatch) (platform : Platform ℚ δ) (motor : ι) (s : Locked ι ℚ δ)
    (operation : Operation ℚ δ) : Prop :=
  match operation with
  | .stop => s.channel.position = w.target
  | .setEnabled enable =>
    enable = false ∧ s.channel.driver.isSome = true ∧ s.channel.position = w.target
  | .setPositionZero => w.target = 0
  | .armPullCycle => s.channel.enabled = true ∧ s.lock.holder = none ∧ 0 < w.hold ∧
      (w.target = 0 ∨ s.channel.cfg.pullHoldS ≤ 0 ∧
        w.target = s.channel.cfg.pullTravelFullSteps * s.channel.microstep)
  | .setMicrostep divisor => operation.accepted platform motor s = true ∧
      ¬ w.Bound { s.channel with
        position := s.channel.rescale divisor s.channel.position
        target := s.channel.rescale divisor s.channel.target
        retractTarget := s.channel.rescale divisor s.channel.retractTarget }
  | .tick dt now => Locked.tickFaultsAt platform.hal platform.sqrt motor w.target s dt now ∧
      (w.tally dt s.channel).held < w.hold
  | .pulse elapsed => Locked.pulseFaultsAt platform.hal platform.sqrt w.target s.channel elapsed ∧
      w.held < w.hold
  | operation =>
    operation.accepted platform motor s = true ∧ w.Shortens (operation.heading s.channel)

/-- Whether an operation spoils a step can be decided. -/
instance (w : StepWatch) (platform : Platform ℚ δ) (motor : ι) (s : Locked ι ℚ δ)
    (operation : Operation ℚ δ) : Decidable (w.Spoils platform motor s operation) := by
  cases operation with
  | stop => exact inferInstanceAs (Decidable (_ = _))
  | setPositionZero => exact inferInstanceAs (Decidable (_ = _))
  | setEnabled enable => exact inferInstanceAs (Decidable (_ ∧ _ ∧ _))
  | armPullCycle => exact inferInstanceAs (Decidable (_ ∧ _ ∧ _ ∧ (_ ∨ _ ∧ _)))
  | setMicrostep divisor => exact inferInstanceAs (Decidable (_ ∧ ¬ _))
  | tick dt now => exact inferInstanceAs (Decidable (_ ∧ _))
  | pulse elapsed => exact inferInstanceAs (Decidable (_ ∧ _))
  | _ => exact inferInstanceAs (Decidable (_ ∧ _))

end StepWatch

namespace Locked

open StepperChannel StepWatch

/-- A change of the divisor that is accepted rescales the positions. -/
theorem setMicrostep_accepted {hal : StepperDriver ℚ δ} {c : StepperChannel ℚ δ} {divisor : ℤ}
    (h : (c.setMicrostep hal divisor).1.isOk = true) :
    SameCourse { c with
      position := c.rescale divisor c.position
      target := c.rescale divisor c.target
      retractTarget := c.rescale divisor c.retractTarget } (c.setMicrostep hal divisor).2 := by
  unfold setMicrostep at h ⊢
  unfold rescale
  split at h
  · cases h
  case isFalse hsupported =>
    rw [if_neg hsupported]
    dsimp only at h ⊢
    split at h
    · cases h
    case isFalse hhealthy =>
      rw [if_neg hhealthy]
      split
      · exact ⟨⟨rfl, rfl, rfl, rfl, rfl, rfl⟩, rfl⟩
      · exact ⟨⟨rfl, rfl, rfl, rfl, rfl, rfl⟩, rfl⟩

/-- A change of the divisor that is refused keeps the course. -/
theorem setMicrostep_refused {hal : StepperDriver ℚ δ} {c : StepperChannel ℚ δ} {divisor : ℤ}
    (h : ¬ (c.setMicrostep hal divisor).1.isOk = true) :
    SameCourse c (c.setMicrostep hal divisor).2 := by
  unfold setMicrostep at h ⊢
  split
  · exact .refl c
  case isFalse hsupported =>
    rw [if_neg hsupported] at h
    dsimp only at h ⊢
    split
    · exact ⟨⟨rfl, rfl, rfl, rfl, rfl, rfl⟩, rfl⟩
    case isFalse hhealthy =>
      rw [if_neg hhealthy] at h
      exact absurd rfl h

/-- A motor sent somewhere is sound when it is not sent to the step's target for less than the hold. -/
theorem sent_sound {w : StepWatch} {c : StepperChannel ℚ δ} (hheld : 0 ≤ w.held)
    (hretract : c.retractAfterHold = false)
    (hmode : c.mode = if c.position ≠ c.target then .moving
      else if 0 < c.holdRemainingS then .holding else .idle)
    (hmoving : c.moving = decide (c.position ≠ c.target))
    (hok : c.target = w.target → w.hold ≤ c.holdRemainingS) : w.Sound c := by
  by_cases hplace : c.position = c.target
  · rw [if_neg (not_not.mpr hplace)] at hmode
    by_cases hhold : 0 < c.holdRemainingS
    · rw [if_pos hhold] at hmode
      refine Or.inr ⟨?_, flagged_holding hmode⟩
      unfold Bound
      simp only [hmode, hretract, hplace, Bool.false_eq_true, if_false]
      by_cases htarget : c.target = w.target
      · exact Or.inr ((hok htarget).trans (le_add_of_nonneg_left hheld))
      · exact Or.inl htarget
    · rw [if_neg hhold] at hmode
      refine sound_idle hmode fun hposition => ?_
      exact ((hok (hplace.symm.trans hposition)).trans (not_lt.mp hhold)).trans hheld
  · rw [if_pos hplace] at hmode
    refine Or.inr ⟨?_, fun _ => by rw [hmoving, decide_eq_true hplace]⟩
    unfold Bound
    simp only [hmode, hretract, Bool.false_eq_true, false_and, if_false]
    by_cases htarget : c.target = w.target
    · exact Or.inr ((hok htarget).trans (le_max_right _ _))
    · exact Or.inl htarget

/-- A command that starts a move leaves the channel as it set it, or as it was. -/
theorem startMotion_sound {w : StepWatch} {motor : ι} {s : Locked ι ℚ δ} {needsLock : Prop}
    [Decidable needsLock] {set : StepperChannel ℚ δ → StepperChannel ℚ δ} (hsound : w.Sound s.channel)
    (hset : (startMotion motor s needsLock set).1.isOk = true →
      ∀ c, c.position = s.channel.position → w.Sound (set c)) :
    w.Sound (startMotion motor s needsLock set).2.channel := by
  unfold startMotion at hset ⊢
  by_cases hneeds : needsLock
  · rw [if_pos hneeds] at hset ⊢
    unfold acquireLockForMotion at hset ⊢
    by_cases hheld : s.channel.lockHeld = true
    · rw [if_pos hheld] at hset ⊢
      exact hset rfl s.channel rfl
    · rw [if_neg hheld] at hset ⊢
      cases hacquire : s.lock.tryAcquire motor with
      | mk got taken =>
        cases got with
        | false => exact hsound
        | true =>
          rw [hacquire] at hset
          exact hset rfl { s.channel with lockHeld := true } rfl
  · rw [if_neg hneeds] at hset ⊢
    exact hset rfl s.channel rfl

/-- A relative move is sound unless it is accepted and goes to the target of a step with a hold. -/
theorem moveSteps_sound {w : StepWatch} {motor : ι} {s : Locked ι ℚ δ} {delta : ℤ} (hheld : 0 ≤ w.held)
    (hsound : w.Sound s.channel) (hok : (s.moveSteps motor delta).1.isOk = true →
      wrap64 (s.channel.target + delta) = w.target → w.hold ≤ 0) :
    w.Sound (s.moveSteps motor delta).2.channel := by
  unfold moveSteps at hok ⊢
  split
  · exact hsound
  case isFalse henabled =>
    rw [if_neg henabled] at hok
    dsimp only at hok ⊢
    split
    · exact hsound
    case isFalse hlimit =>
      rw [if_neg hlimit] at hok
      refine startMotion_sound hsound fun haccepted c hposition => ?_
      refine sent_sound hheld rfl ?_ rfl (hok haccepted)
      simp only [lt_irrefl, if_false]

/-- A move to a position is sound unless it is accepted and goes to the target of a step for less than
the hold. -/
theorem moveToSteps_sound {w : StepWatch} {motor : ι} {s : Locked ι ℚ δ} {absolute : ℤ} {hold : ℚ}
    (hheld : 0 ≤ w.held) (hsound : w.Sound s.channel)
    (hok : (s.moveToSteps motor absolute hold).1.isOk = true → absolute = w.target → w.hold ≤ hold) :
    w.Sound (s.moveToSteps motor absolute hold).2.channel := by
  unfold moveToSteps at hok ⊢
  split
  · exact hsound
  case isFalse henabled =>
    rw [if_neg henabled] at hok
    split
    · exact hsound
    case isFalse hlimit =>
      rw [if_neg hlimit] at hok
      split
      · exact hsound
      case isFalse hnegative =>
        rw [if_neg hnegative] at hok
        refine startMotion_sound hsound fun haccepted c hposition => ?_
        exact sent_sound hheld rfl rfl rfl (hok haccepted)

/-- Relabelling keeps reply and course. -/
theorem relabel_course (source : String) (reply : Except String Unit × Locked ι ℚ δ) :
    (relabel source reply).1 = reply.1 ∧ SameCourse reply.2.channel (relabel source reply).2.channel := by
  unfold relabel
  split
  · exact ⟨rfl, ⟨rfl, rfl, rfl, rfl, rfl, rfl⟩, rfl⟩
  · exact ⟨rfl, .refl _⟩

/-- Going home is sound unless it is accepted and home is the target of a step with a hold. -/
theorem home_sound {w : StepWatch} {motor : ι} {s : Locked ι ℚ δ} (hheld : 0 ≤ w.held)
    (hsound : w.Sound s.channel)
    (hok : (s.home motor).1.isOk = true → 0 = w.target → w.hold ≤ 0) :
    w.Sound (s.home motor).2.channel := by
  unfold home at hok ⊢
  split
  · exact hsound
  case isFalse henabled =>
    rw [if_neg henabled] at hok
    refine startMotion_sound hsound fun haccepted c hposition => ?_
    refine sent_sound hheld rfl ?_ rfl (hok haccepted)
    simp only [lt_irrefl, if_false]

/-- A pull is sound unless it takes the free lock and ends at the target of a step with a hold. -/
theorem armPullCycle_sound {w : StepWatch} {motor : ι} {s : Locked ι ℚ δ}
    (hbound : w.Bound s.channel) (hflagged : Flagged s.channel)
    (hok : s.channel.enabled = true → s.lock.holder = none → 0 < w.hold → w.target ≠ 0 ∧
      (s.channel.cfg.pullHoldS ≤ 0 →
        w.target ≠ s.channel.cfg.pullTravelFullSteps * s.channel.microstep)) :
    w.Sound (s.armPullCycle motor).2.channel := by
  unfold armPullCycle
  split
  · exact Or.inr ⟨hbound, hflagged⟩
  case isFalse henabled =>
    split
    · exact Or.inr ⟨hbound, hflagged⟩
    case h_2 taken hacquire =>
      have hfree : s.lock.holder = none := (MotionLock.tryAcquire_eq_true hacquire).1
      have hends := hok (by simpa using henabled) hfree
      have hzero : 0 ≠ w.target ∨ w.hold ≤ 0 := by
        by_cases hhold : 0 < w.hold
        · exact Or.inl (hends hhold).1.symm
        · exact Or.inr (not_lt.mp hhold)
      dsimp only
      split
      · -- refused after the lock was taken: the retract is set all the same
        refine Sound.same ?_ (releaseLockIfHeld_course motor _)
        refine Or.inr ⟨?_, hflagged⟩
        unfold Bound at hbound ⊢
        cases hmode : s.channel.mode with
        | idle =>
          simp only [hmode] at hbound ⊢
          exact hbound
        | retracting =>
          simp only [hmode] at hbound ⊢
          exact hbound
        | moving =>
          simp only [hmode, true_and] at hbound ⊢
          split
          · exact hzero
          case isFalse hhold => rwa [if_neg fun h => hhold h.2] at hbound
        | holding =>
          simp only [if_true]
          exact hzero
      · by_cases hplace : s.channel.position = s.channel.cfg.pullTravelFullSteps * s.channel.microstep
        · simp only [hplace, ne_eq, not_true_eq_false, if_false]
          refine Or.inr ⟨?_, flagged_holding rfl⟩
          unfold Bound
          simp only [if_true]
          exact hzero
        · simp only [hplace, ne_eq, not_false_eq_true, if_true]
          refine Or.inr ⟨?_, fun _ => rfl⟩
          unfold Bound
          simp only [true_and]
          split
          · exact hzero
          case isFalse hhold =>
            by_cases hstep : 0 < w.hold
            · exact Or.inl ((hends hstep).2 (not_lt.mp hhold)).symm
            · exact Or.inr ((not_lt.mp hstep).trans (le_max_left _ _))

/-- A stop is sound unless the motor is at the target. -/
theorem stop_sound {w : StepWatch} {motor : ι} {s : Locked ι ℚ δ} (h : s.channel.position ≠ w.target) :
    w.Sound (s.stop motor).channel := by
  refine Sound.same ?_ (releaseLockIfHeld_course motor _)
  exact sound_idle rfl fun hposition => absurd hposition h

/-- Switching the power stage is sound unless it is switched off at the target. -/
theorem setEnabled_sound {w : StepWatch} (hal : StepperDriver ℚ δ) {motor : ι} {s : Locked ι ℚ δ}
    {enable : Bool} (hsound : w.Sound s.channel)
    (h : enable = false → s.channel.driver.isSome = true → s.channel.position ≠ w.target) :
    w.Sound (s.setEnabled hal motor enable).2.channel := by
  unfold setEnabled
  cases hdriver : s.channel.driver with
  | none => exact hsound
  | some d =>
    dsimp only
    split
    case isTrue hoff =>
      have hplace := h (by simpa using hoff) (by rw [hdriver]; rfl)
      refine Sound.same (sound_idle rfl fun hposition => absurd ?_ hplace) (releaseLockIfHeld_course motor _)
      rw [← hposition]
      split
      · rfl
      · rfl
    · split
      · exact hsound.same ⟨⟨rfl, rfl, rfl, rfl, rfl, rfl⟩, rfl⟩
      · exact hsound.same ⟨⟨rfl, rfl, rfl, rfl, rfl, rfl⟩, rfl⟩

end Locked

namespace StepWatch

open Locked

/-- Nothing is counted for an operation that takes no time. -/
theorem tally_zero (w : StepWatch) (c : StepperChannel ℚ δ) : w.tally 0 c = w := by
  simp [tally, heldFor]

/-- A finished step stays finished. -/
theorem seenBy_finished {w : StepWatch} (h : w.finished = true) (operation : Operation ℚ δ)
    (c after : StepperChannel ℚ δ) : (w.seenBy operation c after).finished = true := by
  cases operation with
  | setPositionZero => exact h
  | _ => simp [seenBy, seen, h]

/-- The time a motor was seen to hold is not negative. -/
theorem seenBy_held {w : StepWatch} (h : 0 ≤ w.held) (operation : Operation ℚ δ)
    (c after : StepperChannel ℚ δ) : 0 ≤ (w.seenBy operation c after).held := by
  have hseen (dt : ℚ) : 0 ≤ (w.seen dt c after).held := by
    unfold seen
    dsimp only
    split
    · exact add_nonneg h (w.heldFor_nonneg c dt)
    · exact le_rfl
  cases operation with
  | setPositionZero => exact le_rfl
  | _ => exact hseen _

/-- An operation that does not spoil a step leaves it sound. -/
theorem apply_sound {w : StepWatch} (platform : Platform ℚ δ) (motor : ι) (s : Locked ι ℚ δ)
    (operation : Operation ℚ δ) (hheld : 0 ≤ w.held) (hbound : w.Bound s.channel)
    (hflagged : Flagged s.channel) (hok : ¬ w.Spoils platform motor s operation)
    (hzero : operation ≠ .setPositionZero) :
    (w.tally operation.duration s.channel).Sound (operation.apply platform motor s).channel := by
  have hsound : w.Sound s.channel := Or.inr ⟨hbound, hflagged⟩
  have hcounted (h : operation.duration = 0) : w.tally operation.duration s.channel = w := by
    rw [h, tally_zero]
  have hmove {place : ℤ} {hold : ℚ} (haccepted : operation.accepted platform motor s = true)
      (hheading : operation.heading s.channel = some (place, hold))
      (hspoils : w.Spoils platform motor s operation ↔ operation.accepted platform motor s = true ∧
        w.Shortens (operation.heading s.channel)) (hplace : place = w.target) : w.hold ≤ hold := by
    by_contra hshort
    refine hok (hspoils.mpr ⟨haccepted, ?_⟩)
    rw [hheading]
    exact ⟨hplace, not_le.mp hshort⟩
  cases operation with
  | tick dt now =>
    refine tick_sound platform.hal platform.sqrt motor s dt now hheld hbound hflagged fun hfault => ?_
    exact not_lt.mp fun hshort => hok ⟨hfault, hshort⟩
  | pulse elapsed =>
    rw [hcounted rfl]
    refine pulse_sound platform.hal platform.sqrt motor s elapsed hbound hflagged fun hfault => ?_
    exact not_lt.mp fun hshort => hok ⟨hfault, hshort⟩
  | moveSteps delta =>
    rw [hcounted rfl]
    exact moveSteps_sound hheld hsound fun haccepted => hmove haccepted rfl Iff.rfl
  | moveToSteps absolute hold =>
    rw [hcounted rfl]
    exact moveToSteps_sound hheld hsound fun haccepted => hmove haccepted rfl Iff.rfl
  | moveMillimeters deltaMm =>
    rw [hcounted rfl]
    simp only [Operation.accepted, moveMillimeters] at hmove
    simp only [Operation.apply, moveMillimeters]
    split
    · exact hsound
    case h_2 usteps husteps =>
      obtain ⟨hreply, hcourse⟩ := relabel_course "cmd:MOVE_MM" (s.moveSteps motor usteps)
      refine Sound.same (moveSteps_sound hheld hsound fun haccepted => hmove ?_ ?_ Iff.rfl) hcourse
      · rw [husteps]
        dsimp only
        rw [hreply]
        exact haccepted
      · rw [Operation.heading, husteps]
        rfl
  | moveToMillimeters absoluteMm hold =>
    rw [hcounted rfl]
    simp only [Operation.accepted, moveToMillimeters] at hmove
    simp only [Operation.apply, moveToMillimeters]
    split
    · exact hsound
    case h_2 usteps husteps =>
      obtain ⟨hreply, hcourse⟩ := relabel_course "cmd:BEND_MM" (s.moveToSteps motor usteps hold)
      refine Sound.same (moveToSteps_sound hheld hsound fun haccepted => hmove ?_ ?_ Iff.rfl) hcourse
      · rw [husteps]
        dsimp only
        rw [hreply]
        exact haccepted
      · rw [Operation.heading, husteps]
        rfl
  | rotate revolutions =>
    rw [hcounted rfl]
    simp only [Operation.apply, rotate]
    split
    · exact hsound
    case isFalse hrev =>
      refine moveSteps_sound hheld hsound fun haccepted => hmove ?_ rfl Iff.rfl
      simpa only [Operation.accepted, rotate, if_neg hrev] using haccepted
  | home =>
    rw [hcounted rfl]
    exact home_sound hheld hsound fun haccepted => hmove haccepted rfl Iff.rfl
  | stop =>
    rw [hcounted rfl]
    exact stop_sound hok
  | setPositionZero => exact absurd rfl hzero
  | acknowledgeStepLoss =>
    rw [hcounted rfl]
    exact hsound.same ⟨⟨rfl, rfl, rfl, rfl, rfl, rfl⟩, rfl⟩
  | setSpeed fullStepHz =>
    rw [hcounted rfl]
    exact hsound.same (setSpeed_course _ _)
  | setAccel accel =>
    rw [hcounted rfl]
    exact hsound.same (setAccel_course _ _ _)
  | setRunCurrent aRms =>
    rw [hcounted rfl]
    exact hsound.same (setRunCurrent_course _ _ _)
  | setMicrostep divisor =>
    rw [hcounted rfl]
    by_cases haccepted : (s.channel.setMicrostep platform.hal divisor).1.isOk = true
    · refine Sound.same (Or.inr ⟨?_, ?_⟩) (setMicrostep_accepted haccepted)
      · exact not_not.mp fun hbad => hok ⟨haccepted, hbad⟩
      · exact hflagged
    · exact hsound.same (setMicrostep_refused haccepted)
  | setEnabled enable =>
    rw [hcounted rfl]
    exact setEnabled_sound platform.hal hsound fun hoff hdriver hplace => hok ⟨hoff, hdriver, hplace⟩
  | armPullCycle =>
    rw [hcounted rfl]
    refine armPullCycle_sound hbound hflagged fun henabled hfree hhold => ⟨fun h => ?_, fun hshort h => ?_⟩
    · exact hok ⟨henabled, hfree, hhold, Or.inl h⟩
    · exact hok ⟨henabled, hfree, hhold, Or.inr ⟨hshort, h⟩⟩
  | driverChange after =>
    rw [hcounted rfl]
    exact hsound.same ⟨⟨rfl, rfl, rfl, rfl, rfl, rfl⟩, rfl⟩

/-- An operation that does not spoil an unfinished step keeps it tracked. -/
theorem apply_tracked {w : StepWatch} (platform : Platform ℚ δ) (motor : ι) (s : Locked ι ℚ δ)
    (operation : Operation ℚ δ) (h : w.Tracked s.channel)
    (hok : w.finished = false → ¬ w.Spoils platform motor s operation) :
    (w.seenBy operation s.channel (operation.apply platform motor s).channel).Tracked
      (operation.apply platform motor s).channel := by
  obtain ⟨hheld, hfinished | ⟨hbound, hflagged⟩⟩ := h
  · exact ⟨seenBy_held hheld _ _ _, Or.inl (seenBy_finished hfinished _ _ _)⟩
  cases hfinished : w.finished with
  | true => exact ⟨seenBy_held hheld _ _ _, Or.inl (seenBy_finished hfinished _ _ _)⟩
  | false =>
    by_cases hzero : operation = .setPositionZero
    · subst hzero
      refine ⟨le_rfl, Or.inr ?_⟩
      have htarget : (0 : ℤ) ≠ w.target := fun h => hok hfinished h.symm
      have hidle : ({ w with held := 0 } : StepWatch).Sound (s.setPositionZero motor).channel :=
        (sound_idle rfl fun hposition => absurd hposition htarget).same (releaseLockIfHeld_course motor _)
      refine hidle.resolve_left fun hdone => htarget ?_
      exact (releaseLockIfHeld_course motor _).position.symm.trans hdone.1
    · have hsound := apply_sound platform motor s operation hheld hbound hflagged (hok hfinished) hzero
      have hseen : w.seenBy operation s.channel (operation.apply platform motor s).channel =
          w.seen operation.duration s.channel (operation.apply platform motor s).channel := by
        cases operation with
        | setPositionZero => exact absurd rfl hzero
        | _ => rfl
      rw [hseen]
      exact tracked_seen hheld (Or.inr hsound)

end StepWatch

/-- A rig and the steps that are followed on its motors. -/
structure Watched (ι δ : Type*) where
  watches : ι → Option StepWatch
  rig : Rig ι ℚ δ

namespace Watched

/-- Carry out an operation of one motor under the eyes of the onlooker. -/
def step (platform : Platform ℚ δ) (s : Watched ι δ) (input : ι × Operation ℚ δ) : Watched ι δ :=
  let after := s.rig.step platform input
  { watches := Function.update s.watches input.1 ((s.watches input.1).map fun w =>
      w.seenBy input.2 (s.rig.channels input.1) (after.channels input.1))
    rig := after }

/-- The operation spoils no unfinished step of the motors that are looked after. -/
def Unspoiled (platform : Platform ℚ δ) (cared : ι → Prop) (s : Watched ι δ)
    (input : ι × Operation ℚ δ) : Prop :=
  cared input.1 → ∀ w ∈ s.watches input.1, w.finished = false →
    ¬ w.Spoils platform input.1 (s.rig.locked input.1) input.2

/-- Whether an operation spoils nothing can be decided. -/
instance (platform : Platform ℚ δ) (cared : ι → Prop) [DecidablePred cared] (s : Watched ι δ)
    (input : ι × Operation ℚ δ) : Decidable (s.Unspoiled platform cared input) :=
  inferInstanceAs (Decidable (_ → ∀ w ∈ s.watches input.1, _ → ¬ _))

/-- The steps of the motors that are looked after are tracked. -/
def Tracked (cared : ι → Prop) (s : Watched ι δ) : Prop :=
  ∀ motor, cared motor → ∀ w, s.watches motor = some w → w.Tracked (s.rig.channels motor)

/-- The onlooker does not change the run of the rig. -/
theorem run_rig (platform : Platform ℚ δ) (s : Watched ι δ) (inputs : List (ι × Operation ℚ δ)) :
    (run (step platform) s inputs).rig = run (Rig.step platform) s.rig inputs := by
  induction inputs generalizing s with
  | nil => rfl
  | cons input rest ih => exact ih (s.step platform input)

/-- What an operation keeps of the watch and the channel of its own motor it keeps of those of all motors that
are looked after. -/
theorem keeps_step (platform : Platform ℚ δ) {cared : ι → Prop} {good : StepWatch → StepperChannel ℚ δ → Prop}
    {s : Watched ι δ} {input : ι × Operation ℚ δ}
    (h : ∀ motor, cared motor → ∀ w, s.watches motor = some w → good w (s.rig.channels motor))
    (hown : cared input.1 → ∀ w, s.watches input.1 = some w → good w (s.rig.channels input.1) →
      good (w.seenBy input.2 (s.rig.channels input.1) ((input.2.apply platform input.1 (s.rig.locked input.1)).channel))
        (input.2.apply platform input.1 (s.rig.locked input.1)).channel) :
    ∀ motor, cared motor → ∀ w, (s.step platform input).watches motor = some w →
      good w ((s.step platform input).rig.channels motor) := by
  intro motor hcared w hw
  by_cases hmotor : motor = input.1
  · subst hmotor
    simp only [step, Function.update_self, Option.map_eq_some_iff] at hw
    obtain ⟨before, hbefore, rfl⟩ := hw
    simp only [step, Rig.step, Function.update_self]
    exact hown hcared before hbefore (h input.1 hcared before hbefore)
  · simp only [step, Function.update_of_ne hmotor] at hw
    simp only [step, Rig.step, Function.update_of_ne hmotor]
    exact h motor hcared w hw

/-- An operation that spoils nothing keeps the steps tracked. -/
theorem tracked_step (platform : Platform ℚ δ) {cared : ι → Prop} (s : Watched ι δ)
    (input : ι × Operation ℚ δ) (h : s.Tracked cared) (hok : s.Unspoiled platform cared input) :
    (s.step platform input).Tracked cared :=
  keeps_step platform h fun hcared w hw htracked =>
    StepWatch.apply_tracked platform input.1 (s.rig.locked input.1) input.2 htracked (hok hcared w hw)

/-- A run of operations that spoil nothing keeps the steps tracked. -/
theorem tracked_run (platform : Platform ℚ δ) {cared : ι → Prop} {s : Watched ι δ}
    {inputs : List (ι × Operation ℚ δ)} (h : s.Tracked cared)
    (hok : Meets (step platform) (Unspoiled platform cared) s inputs) :
    (run (step platform) s inputs).Tracked cared :=
  run_invariant (tracked_step platform) h hok

/-- What no operation changes of a watch stays over a run. -/
theorem run_kept {α : Type*} (platform : Platform ℚ δ) {f : StepWatch → α}
    (hf : ∀ (w : StepWatch) (operation : Operation ℚ δ) (c after : StepperChannel ℚ δ),
      f (w.seenBy operation c after) = f w) (s : Watched ι δ) (inputs : List (ι × Operation ℚ δ)) (motor : ι) :
    ((run (step platform) s inputs).watches motor).map f = (s.watches motor).map f := by
  induction inputs generalizing s with
  | nil => rfl
  | cons input rest ih =>
    rw [run_cons, ih]
    by_cases hmotor : motor = input.1
    · subst hmotor
      simp only [step, Function.update_self, Option.map_map]
      congr 1
      funext w
      exact hf w _ _ _
    · simp only [step, Function.update_of_ne hmotor]

end Watched

end Coatheal.Motion
