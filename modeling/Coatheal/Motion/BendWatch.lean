import Coatheal.Motion.Watch

/-!
# A bend that is left alone

A bend is in hand while its motor is on the way to the target, holds there, or
was stopped by a safety abort that its last source still tells of. Ticks, pulses
and faults of the driver keep it in hand until it is done. The operations that
take it out of hand are named; nothing else does.
-/

set_option linter.unusedSectionVars false

namespace Coatheal.Motion

open Coatheal.Library

variable {ι δ : Type*} [DecidableEq ι]

/-- The last motion ended in a safety abort. -/
def endedBySafetyAbort (c : StepperChannel ℚ δ) : Bool := "safety:".toList.isPrefixOf c.lastSource.toList

/-- The sources of the aborts tell of them. -/
theorem endedBySafetyAbort_of_source {c : StepperChannel ℚ δ}
    (h : c.lastSource = "safety:STEPLOSS" ∨ c.lastSource = "safety:OVERTEMP") : endedBySafetyAbort c = true := by
  unfold endedBySafetyAbort
  rcases h with h | h
  · rw [h]
    decide
  · rw [h]
    decide

/-- Two states of a channel on one course, with the same last source. -/
structure SameWay (c after : StepperChannel ℚ δ) : Prop extends SameCourse c after where
  source : after.lastSource = c.lastSource

/-- Every channel is on its own way. -/
theorem SameWay.refl (c : StepperChannel ℚ δ) : SameWay c c := ⟨.refl c, rfl⟩

/-- Ways compose. -/
theorem SameWay.trans {c middle after : StepperChannel ℚ δ} (hfirst : SameWay c middle)
    (hsecond : SameWay middle after) : SameWay c after :=
  ⟨hfirst.toSameCourse.trans hsecond.toSameCourse, hsecond.source.trans hfirst.source⟩

namespace StepWatch

/-- The bend is under way to its end, or the last source tells of its abort. -/
def InHand (w : StepWatch) (c : StepperChannel ℚ δ) : Prop :=
  match c.mode with
  | .moving => c.moving = true ∧ c.target = w.target ∧ c.retractAfterHold = false ∧
      w.hold ≤ max 0 c.holdRemainingS
  | .holding => c.position = w.target ∧ c.retractAfterHold = false ∧ w.hold ≤ w.held + c.holdRemainingS
  | .retracting => False
  | .idle => endedBySafetyAbort c = true

/-- Whether a bend is in hand is decided by its mode. -/
instance (w : StepWatch) (c : StepperChannel ℚ δ) : Decidable (w.InHand c) :=
  match hmode : c.mode with
  | .moving =>
    decidable_of_iff (c.moving = true ∧ c.target = w.target ∧ c.retractAfterHold = false ∧
      w.hold ≤ max 0 c.holdRemainingS) (by simp only [InHand, hmode])
  | .holding =>
    decidable_of_iff (c.position = w.target ∧ c.retractAfterHold = false ∧ w.hold ≤ w.held + c.holdRemainingS)
      (by simp only [InHand, hmode])
  | .retracting => .isFalse (by simp only [InHand, hmode, not_false_eq_true])
  | .idle => decidable_of_iff (endedBySafetyAbort c = true) (by simp only [InHand, hmode])

/-- The bend is done or in hand. -/
def Going (w : StepWatch) (c : StepperChannel ℚ δ) : Prop := w.Done c ∨ w.InHand c

/-- What the onlooker relies on: the bend was finished, or it is in hand. -/
def Followed (w : StepWatch) (c : StepperChannel ℚ δ) : Prop :=
  0 ≤ w.held ∧ (w.finished = true ∨ w.InHand c)

/-- More time in the hold leaves the bend in hand. -/
theorem InHand.mono {w w' : StepWatch} {c : StepperChannel ℚ δ} (h : w.InHand c)
    (htarget : w'.target = w.target) (hhold : w'.hold = w.hold)
    (hheld : c.position = w.target → w.held ≤ w'.held) : w'.InHand c := by
  unfold InHand at h ⊢
  rw [htarget, hhold]
  cases hmode : c.mode with
  | holding =>
    simp only [hmode] at h ⊢
    exact ⟨h.1, h.2.1, h.2.2.trans (by linarith [hheld h.1])⟩
  | moving =>
    simp only [hmode] at h ⊢
    exact h
  | idle =>
    simp only [hmode] at h ⊢
    exact h
  | retracting => simp only [hmode] at h

/-- A bend that goes on is followed once it was seen. -/
theorem followed_seen {w : StepWatch} {dt : ℚ} {c after : StepperChannel ℚ δ} (hheld : 0 ≤ w.held)
    (h : w.finished = true ∨ (w.tally dt c).Going after) : (w.seen dt c after).Followed after := by
  have hcounted : 0 ≤ (w.tally dt c).held := add_nonneg hheld (w.heldFor_nonneg c dt)
  refine ⟨?_, ?_⟩
  · unfold seen
    dsimp only
    split
    · exact hcounted
    · exact le_rfl
  rcases h with hfinished | hdone | hinHand
  · exact Or.inl (by simp [seen, hfinished])
  · have hdone : after.position = w.target ∧ w.hold ≤ (w.tally dt c).held := hdone
    exact Or.inl (by simp [seen, hdone])
  · refine Or.inr (hinHand.mono rfl rfl fun hposition => ?_)
    have hposition : after.position = w.target := hposition
    simp [seen, hposition]

/-- A channel on the same way is in hand as before. -/
theorem InHand.same {w : StepWatch} {c after : StepperChannel ℚ δ} (h : w.InHand c)
    (hsame : SameWay c after) : w.InHand after := by
  unfold InHand endedBySafetyAbort at h ⊢
  rw [hsame.mode, hsame.moving, hsame.position, hsame.target, hsame.hold, hsame.retractAfterHold, hsame.source]
  exact h

/-- A motor that is busy is in hand as before on the same course, whatever its last source. -/
theorem InHand.sameCourse {w : StepWatch} {c after : StepperChannel ℚ δ} (h : w.InHand c)
    (hsame : SameCourse c after) (hbusy : c.mode ≠ .idle) : w.InHand after := by
  unfold InHand at h ⊢
  rw [hsame.mode, hsame.moving, hsame.position, hsame.target, hsame.hold, hsame.retractAfterHold]
  cases hmode : c.mode with
  | idle => exact absurd hmode hbusy
  | moving =>
    simp only [hmode] at h ⊢
    exact h
  | holding =>
    simp only [hmode] at h ⊢
    exact h
  | retracting => simp only [hmode] at h

/-- A motor on its way is in hand as before on the same leg, wherever it has come. -/
theorem InHand.sameLeg {w : StepWatch} {c after : StepperChannel ℚ δ} (h : w.InHand c)
    (hleg : SameLeg c after) (hmode : c.mode = .moving) : w.InHand after := by
  unfold InHand at h ⊢
  rw [hleg.mode, hleg.moving, hleg.target, hleg.hold, hleg.retractAfterHold]
  rw [hmode] at h ⊢
  exact h

/-- Counting time leaves the bend in hand. -/
theorem InHand.tally {w : StepWatch} {c : StepperChannel ℚ δ} (h : w.InHand c) (dt : ℚ)
    (before : StepperChannel ℚ δ) : (w.tally dt before).InHand c :=
  h.mono rfl rfl fun _ => le_add_of_nonneg_right (w.heldFor_nonneg before dt)

/-- An aborted motor at rest is in hand. -/
theorem inHand_idle {w : StepWatch} {c : StepperChannel ℚ δ} (hmode : c.mode = .idle)
    (haborted : endedBySafetyAbort c = true) : w.InHand c := by
  unfold InHand
  rw [hmode]
  exact haborted

end StepWatch

namespace Locked

open StepperChannel StepWatch

/-- Absorbing step-loss events keeps the way. -/
theorem absorbDriverStepLoss_way (hal : StepperDriver ℚ δ) (c : StepperChannel ℚ δ) :
    SameWay c (absorbDriverStepLoss hal c).2 := by
  refine ⟨absorbDriverStepLoss_course hal c, ?_⟩
  unfold absorbDriverStepLoss
  split
  · rfl
  · dsimp only
    split
    · rfl
    · rfl

/-- So does absorbing them from a driver that has been called. -/
theorem absorbCalled_way (hal : StepperDriver ℚ δ) (c : StepperChannel ℚ δ) (called : Option δ) :
    SameWay c (absorbDriverStepLoss hal { c with driver := called }).2 := by
  have hcalled : SameWay c { c with driver := called } := ⟨⟨⟨rfl, rfl, rfl, rfl, rfl, rfl⟩, rfl⟩, rfl⟩
  exact hcalled.trans (absorbDriverStepLoss_way hal { c with driver := called })

/-- The ramp keeps the way. -/
theorem updateRampSpeed_way (sqrt : ℚ → ℚ) (c : StepperChannel ℚ δ) (dt : ℚ) (remaining : ℤ) :
    SameWay c (updateRampSpeed sqrt c dt remaining) := by
  refine ⟨updateRampSpeed_course sqrt c dt remaining, ?_⟩
  unfold updateRampSpeed
  split
  · rfl
  split
  · rfl
  · rfl

/-- A speed command keeps the way. -/
theorem setSpeed_way (c : StepperChannel ℚ δ) (hz : ℚ) : SameWay c (c.setSpeed hz).2 := by
  refine ⟨setSpeed_course c hz, ?_⟩
  unfold setSpeed
  split
  · rfl
  · rfl

/-- An acceleration command keeps the way. -/
theorem setAccel_way (shown : ℚ → String) (c : StepperChannel ℚ δ) (accel : Option ℚ) :
    SameWay c (c.setAccel shown accel).2 := by
  refine ⟨setAccel_course shown c accel, ?_⟩
  unfold setAccel
  split
  · rfl
  split
  · rfl
  split
  · rfl
  · rfl

/-- A current command keeps the way. -/
theorem setRunCurrent_way (hal : StepperDriver ℚ δ) (c : StepperChannel ℚ δ) (aRms : ℚ) :
    SameWay c (c.setRunCurrent hal aRms).2 := by
  refine ⟨setRunCurrent_course hal c aRms, ?_⟩
  unfold setRunCurrent
  split
  · rfl
  · rfl

/-- A change of the divisor that is refused keeps the way. -/
theorem setMicrostep_refused_way {hal : StepperDriver ℚ δ} {c : StepperChannel ℚ δ} {divisor : ℤ}
    (h : ¬ (c.setMicrostep hal divisor).1.isOk = true) : SameWay c (c.setMicrostep hal divisor).2 := by
  refine ⟨setMicrostep_refused h, ?_⟩
  unfold setMicrostep
  split
  · rfl
  dsimp only
  split
  · rfl
  split
  · rfl
  · rfl

/-- A change of the divisor that is accepted rescales the positions, and keeps the way otherwise. -/
theorem setMicrostep_accepted_way {hal : StepperDriver ℚ δ} {c : StepperChannel ℚ δ} {divisor : ℤ}
    (h : (c.setMicrostep hal divisor).1.isOk = true) :
    SameWay { c with
      position := c.rescale divisor c.position
      target := c.rescale divisor c.target
      retractTarget := c.rescale divisor c.retractTarget } (c.setMicrostep hal divisor).2 := by
  refine ⟨setMicrostep_accepted h, ?_⟩
  unfold setMicrostep
  split
  · rfl
  dsimp only
  split
  · rfl
  split
  · rfl
  · rfl

/-- Giving the lock back keeps the way. -/
theorem releaseLockIfHeld_way (motor : ι) (s : Locked ι ℚ δ) :
    SameWay s.channel (releaseLockIfHeld motor s).channel := by
  refine ⟨releaseLockIfHeld_course motor s, ?_⟩
  unfold releaseLockIfHeld
  split
  · rfl
  · rfl

/-- A motor at rest after an abort, with the lock given back. -/
theorem released_aborted (motor : ι) (s : Locked ι ℚ δ) (hmode : s.channel.mode = .idle)
    (hsource : s.channel.lastSource = "safety:STEPLOSS" ∨ s.channel.lastSource = "safety:OVERTEMP") :
    (releaseLockIfHeld motor s).channel.mode = .idle ∧
      endedBySafetyAbort (releaseLockIfHeld motor s).channel = true := by
  have hway := releaseLockIfHeld_way motor s
  refine ⟨hway.mode.trans hmode, endedBySafetyAbort_of_source ?_⟩
  rw [hway.source]
  exact hsource

/-- A move that is ended for a step loss is aborted. -/
theorem abortMoveForStepLoss_aborted (motor : ι) (s : Locked ι ℚ δ) :
    (abortMoveForStepLoss motor s).channel.mode = .idle ∧
      endedBySafetyAbort (abortMoveForStepLoss motor s).channel = true :=
  released_aborted motor _ rfl (Or.inl rfl)

/-- A move whose driver refused a step is aborted. -/
theorem stepRefused_aborted (hal : StepperDriver ℚ δ) (motor : ι) (s : Locked ι ℚ δ) (d : δ) (counted : Bool) :
    (stepRefused hal motor s d counted).channel.mode = .idle ∧
      endedBySafetyAbort (stepRefused hal motor s d counted).channel = true :=
  released_aborted motor _ rfl (Or.inl rfl)

/-- The pulse loop stays on its leg, or a fault of the driver ends it in an abort. -/
theorem issueLoop_bend (hal : StepperDriver ℚ δ) (motor : ι) (forward : Bool) (left : ℕ) (issued : ℤ)
    (s : Locked ι ℚ δ) :
    let after := (issueLoop hal motor forward left issued s).2.channel
    SameLeg s.channel after ∨ after.mode = .idle ∧ endedBySafetyAbort after = true := by
  induction left generalizing issued s with
  | zero => exact Or.inl (SameCourse.refl _).toSameLeg
  | succ left ih =>
    unfold issueLoop
    cases hdriver : s.channel.driver with
    | none => exact Or.inl (SameCourse.refl _).toSameLeg
    | some d =>
      have hcourse := absorbCalled_course hal s.channel (some (hal.step d forward).2)
      dsimp only
      split
      · exact Or.inr (abortMoveForStepLoss_aborted motor _)
      · cases hstepped : (hal.step d forward).1 with
        | true =>
          simp only [if_true]
          exact (ih _ ⟨s.lock, _⟩).imp_left fun hleg => (hcourse.toSameLeg.stepped _).trans hleg
        | false =>
          simp only [Bool.false_eq_true, if_false]
          split
          · exact Or.inl hcourse.toSameLeg
          · exact Or.inr (stepRefused_aborted hal motor _ _ _)

/-- Issuing pulses stays on the leg, or a fault ends it in an abort. -/
theorem issuePulses_bend (hal : StepperDriver ℚ δ) (motor : ι) (s : Locked ι ℚ δ) (allowed : ℤ) :
    let after := (issuePulses hal motor s allowed).2.channel
    SameLeg s.channel after ∨ after.mode = .idle ∧ endedBySafetyAbort after = true := by
  unfold issuePulses
  dsimp only
  split
  · exact Or.inl (SameCourse.refl _).toSameLeg
  split
  · exact Or.inl (SameCourse.refl _).toSameLeg
  have hloop := issueLoop_bend hal motor (decide (s.channel.target > s.channel.position))
    (min allowed |s.channel.target - s.channel.position|).toNat 0 s
  split
  · refine hloop.imp (fun hleg => hleg.trans (absorbCalled_course hal _ _).toSameLeg) fun ⟨hidle, haborted⟩ => ?_
    have hway := absorbCalled_way hal (issueLoop hal motor (decide (s.channel.target > s.channel.position))
      (min allowed |s.channel.target - s.channel.position|).toNat 0 s).2.channel
      ((issueLoop hal motor (decide (s.channel.target > s.channel.position))
        (min allowed |s.channel.target - s.channel.position|).toNat 0 s).2.channel.driver.map
          fun d => (hal.confirmTarget d).2)
    refine ⟨hway.mode.trans hidle, ?_⟩
    unfold endedBySafetyAbort at haborted ⊢
    rw [hway.source]
    exact haborted
  · exact hloop

/-- At the end of the leg to the target the hold begins, or the bend is done. -/
theorem endLeg_bend {w : StepWatch} (motor : ι) (s : Locked ι ℚ δ) (hheld : 0 ≤ w.held)
    (hplace : s.channel.position = s.channel.target) (htarget : s.channel.target = w.target)
    (hretract : s.channel.retractAfterHold = false) (hmode : s.channel.mode = .moving)
    (hhold : w.hold ≤ max 0 s.channel.holdRemainingS) : w.Going (endLeg motor s).channel := by
  unfold endLeg
  split
  case isTrue hlong =>
    rw [max_eq_right hlong.2.le] at hhold
    refine Or.inr ?_
    unfold InHand
    exact ⟨hplace.trans htarget, hretract, hhold.trans (le_add_of_nonneg_left hheld)⟩
  case isFalse hshort =>
    have hnone : s.channel.holdRemainingS ≤ 0 := not_lt.mp fun hpos => hshort ⟨hmode, hpos⟩
    rw [max_eq_left hnone] at hhold
    rw [if_neg (by simp [hmode])]
    refine Or.inl ⟨?_, hhold.trans hheld⟩
    exact (releaseLockIfHeld_way motor _).position.trans (hplace.trans htarget)

/-- The end of a leg that an abort ended changes nothing of it. -/
theorem endLeg_aborted {w : StepWatch} (motor : ι) (s : Locked ι ℚ δ) (hmode : s.channel.mode = .idle)
    (haborted : endedBySafetyAbort s.channel = true) : w.Going (endLeg motor s).channel := by
  unfold endLeg
  rw [if_neg (by simp [hmode]), if_neg (by simp [hmode])]
  refine Or.inr (InHand.same ?_ (releaseLockIfHeld_way motor _))
  exact inHand_idle rfl haborted

/-- A tick of the hold leaves it in hand until its time has passed. -/
theorem tickHolding_bend {w : StepWatch} (motor : ι) (s : Locked ι ℚ δ) {dt : ℚ} (hdt : 0 < dt)
    (hmode : s.channel.mode = .holding) (h : w.InHand s.channel) :
    (w.tally dt s.channel).Going (tickHolding motor s dt).channel := by
  unfold InHand at h
  rw [hmode] at h
  obtain ⟨hposition, hretract, hleft⟩ := h
  have hcount : (w.tally dt s.channel).held = w.held + dt := by
    simp [tally, heldFor, hmode, hposition, hdt]
  unfold tickHolding
  dsimp only
  split
  case isTrue hover =>
    rw [if_neg (by simp [hretract])]
    have hshort : s.channel.holdRemainingS - dt ≤ 0 := (le_max_right _ _).trans hover
    refine Or.inl ⟨(releaseLockIfHeld_way motor _).position.trans hposition, ?_⟩
    rw [hcount]
    exact hleft.trans (by linarith)
  case isFalse hover =>
    have hlong : s.channel.holdRemainingS - dt ≤ max 0 (s.channel.holdRemainingS - dt) := le_max_right _ _
    refine Or.inr ?_
    unfold InHand
    simp only [hmode]
    refine ⟨hposition, hretract, hleft.trans ?_⟩
    rw [hcount]
    linarith

/-- A tick that issues pulses leaves the bend going. -/
theorem tickPulses_bend {w : StepWatch} (hal : StepperDriver ℚ δ) (sqrt : ℚ → ℚ) (motor : ι)
    (s : Locked ι ℚ δ) (dt : ℚ) (hheld : 0 ≤ w.held) (hmode : s.channel.mode = .moving)
    (h : w.InHand s.channel) : w.Going (tickPulses hal sqrt motor s dt).channel := by
  have hdue := duePulses_course hal sqrt s.channel dt
  have hissued := issuePulses_bend hal motor ⟨s.lock, (duePulses hal sqrt s.channel dt).2⟩
    (duePulses hal sqrt s.channel dt).1
  dsimp only at hissued
  unfold tickPulses
  dsimp only
  generalize (issuePulses hal motor ⟨s.lock, (duePulses hal sqrt s.channel dt).2⟩
    (duePulses hal sqrt s.channel dt).1).2 = after at hissued ⊢
  rcases hissued with hleg | ⟨hidle, haborted⟩
  · have hleg : SameLeg s.channel after.channel := hdue.toSameLeg.trans hleg
    have hafter := h.sameLeg hleg hmode
    have hmoving : after.channel.mode = .moving := hleg.mode.trans hmode
    unfold InHand at hafter
    rw [hmoving] at hafter
    obtain ⟨-, htarget, hretract, hhold⟩ := hafter
    split
    · refine Or.inr ?_
      unfold InHand
      simp only [hmoving]
      exact ⟨trivial, htarget, hretract, hhold⟩
    case isFalse hplace => exact endLeg_bend motor _ hheld (not_not.mp hplace) htarget hretract hmoving hhold
  · split
    · exact Or.inr (inHand_idle hidle haborted)
    · exact endLeg_aborted motor _ hidle haborted

/-- What the mode asks for leaves the bend going. -/
theorem tickMotion_bend {w : StepWatch} (hal : StepperDriver ℚ δ) (sqrt : ℚ → ℚ) (motor : ι)
    (s : Locked ι ℚ δ) {dt : ℚ} (hheld : 0 ≤ w.held) (hdt : 0 < dt) (h : w.InHand s.channel) :
    (w.tally dt s.channel).Going (tickMotion hal sqrt motor s dt).channel := by
  have hnonneg : 0 ≤ (w.tally dt s.channel).held := add_nonneg hheld (w.heldFor_nonneg _ dt)
  have hcounted := h.tally dt s.channel
  unfold tickMotion
  split
  case h_1 hmode => exact tickHolding_bend motor s hdt hmode h
  case h_2 hmode =>
    unfold InHand at h
    rw [hmode] at h
    exact Or.inr (inHand_idle hmode h)
  case h_3 hmode =>
    have hway := hcounted
    unfold InHand at hway
    rw [hmode] at hway
    obtain ⟨-, htarget, hretract, hhold⟩ := hway
    split
    case isTrue hplace => exact endLeg_bend motor _ hnonneg hplace htarget hretract hmode hhold
    case isFalse hplace =>
      split
      · refine Or.inr ?_
        unfold InHand
        simp only [hmode]
        exact ⟨trivial, htarget, hretract, hhold⟩
      · exact tickPulses_bend hal sqrt motor s dt hnonneg hmode hcounted
  case h_4 hmode =>
    unfold InHand at h
    rw [hmode] at h
    exact h.elim

/-- A check of the driver keeps the way, or ends the tick with the move aborted. -/
def Guards (s : Locked ι ℚ δ) : Bool × Locked ι ℚ δ → Prop
  | (true, after) => after.channel.mode = .idle ∧ endedBySafetyAbort after.channel = true
  | (false, after) => SameWay s.channel after.channel

/-- Supervising the driver is such a check. -/
theorem tickDriver_guards (hal : StepperDriver ℚ δ) (motor : ι) (now : ℤ) (s : Locked ι ℚ δ) :
    Guards s (tickDriver hal motor now s) := by
  unfold tickDriver
  split
  · exact SameWay.refl _
  case h_2 d hdriver =>
    dsimp only
    split
    · split
      · refine SameWay.trans ?_ (absorbDriverStepLoss_way hal _)
        split
        · split
          · exact ⟨⟨⟨rfl, rfl, rfl, rfl, rfl, rfl⟩, rfl⟩, rfl⟩
          · exact ⟨⟨⟨rfl, rfl, rfl, rfl, rfl, rfl⟩, rfl⟩, rfl⟩
        · exact ⟨⟨⟨rfl, rfl, rfl, rfl, rfl, rfl⟩, rfl⟩, rfl⟩
      · exact SameWay.refl _
    split
    · have hway := absorbCalled_way hal s.channel (some (hal.poll (hal.noteStepRate d 0 false)).2)
      split
      · exact abortMoveForStepLoss_aborted motor _
      · exact hway
    · exact SameWay.refl _

/-- So is a thermal stop. -/
theorem tickThermal_guards (hal : StepperDriver ℚ δ) (motor : ι) (s : Locked ι ℚ δ) :
    Guards s (tickThermal hal motor s) := by
  unfold tickThermal
  split
  · exact SameWay.refl _
  split
  · exact released_aborted motor _ rfl (Or.inr rfl)
  · exact SameWay.refl _

/-- A tick leaves the bend going. -/
theorem tick_bend {w : StepWatch} (hal : StepperDriver ℚ δ) (sqrt : ℚ → ℚ) (motor : ι) (s : Locked ι ℚ δ)
    (dt : ℚ) (now : ℤ) (hheld : 0 ≤ w.held) (h : w.InHand s.channel) :
    (w.tally dt s.channel).Going (tick hal sqrt motor s dt now).channel := by
  unfold tick
  split
  · exact Or.inr (h.tally dt s.channel)
  case isFalse hpositive =>
    have hdriver := tickDriver_guards hal motor now s
    generalize tickDriver hal motor now s = supervision at hdriver ⊢
    obtain ⟨ended, supervised⟩ := supervision
    cases ended with
    | true => exact Or.inr (inHand_idle hdriver.1 hdriver.2)
    | false =>
      have hthermal := tickThermal_guards hal motor supervised
      dsimp only
      generalize tickThermal hal motor supervised = cooling at hthermal ⊢
      obtain ⟨ended, cool⟩ := cooling
      cases ended with
      | true => exact Or.inr (inHand_idle hthermal.1 hthermal.2)
      | false =>
        have hsame : SameWay s.channel cool.channel := SameWay.trans hdriver hthermal
        rw [← tally_same hsame.toSameCourse]
        exact tickMotion_bend hal sqrt motor cool hheld (not_le.mp hpositive) (h.same hsame)

/-- A pulse leaves the bend in hand. -/
theorem pulse_bend {w : StepWatch} (hal : StepperDriver ℚ δ) (sqrt : ℚ → ℚ) (motor : ι) (s : Locked ι ℚ δ)
    (elapsed : ℚ) (h : w.InHand s.channel) : w.InHand (pulse hal sqrt motor s elapsed).channel := by
  unfold pulse
  split
  · exact h
  case isFalse hbusy =>
    have hmode : s.channel.mode = .moving := by
      cases hmode : s.channel.mode with
      | moving => rfl
      | retracting =>
        unfold InHand at h
        rw [hmode] at h
        exact h.elim
      | idle => simp [hmode] at hbusy
      | holding => simp [hmode] at hbusy
    split
    · exact h
    dsimp only
    have hramp := updateRampSpeed_way sqrt s.channel (clampElapsed elapsed)
      |s.channel.target - s.channel.position|
    have hreport := hramp.toSameCourse.trans (reportStepRateToDriver_course hal _)
    split
    · exact h.same hramp
    · rcases issuePulses_bend hal motor ⟨s.lock, reportStepRateToDriver hal
        (updateRampSpeed sqrt s.channel (clampElapsed elapsed) |s.channel.target - s.channel.position|)⟩ 1 with
        hleg | ⟨hidle, haborted⟩
      · exact h.sameLeg (hreport.toSameLeg.trans hleg) hmode
      · exact inHand_idle hidle haborted

/-- A motor that was sent to the target for the hold is at the beginning of the bend, or the bend is done. -/
theorem sent_bend {w : StepWatch} {c : StepperChannel ℚ δ} (hheld : 0 ≤ w.held)
    (hretract : c.retractAfterHold = false)
    (hmode : c.mode = if c.position ≠ c.target then .moving
      else if 0 < c.holdRemainingS then .holding else .idle)
    (hmoving : c.moving = decide (c.position ≠ c.target)) (htarget : c.target = w.target)
    (hhold : w.hold ≤ c.holdRemainingS) : w.Done c ∨ w.InHand c ∧ c.mode ≠ .idle := by
  by_cases hplace : c.position = c.target
  · rw [if_neg (not_not.mpr hplace)] at hmode
    by_cases hlong : 0 < c.holdRemainingS
    · rw [if_pos hlong] at hmode
      refine Or.inr ⟨?_, by simp [hmode]⟩
      unfold InHand
      rw [hmode]
      exact ⟨hplace.trans htarget, hretract, hhold.trans (le_add_of_nonneg_left hheld)⟩
    · exact Or.inl ⟨hplace.trans htarget, (hhold.trans (not_lt.mp hlong)).trans hheld⟩
  · rw [if_pos hplace] at hmode
    refine Or.inr ⟨?_, by simp [hmode]⟩
    unfold InHand
    rw [hmode]
    exact ⟨by rw [hmoving, decide_eq_true hplace], htarget, hretract, hhold.trans (le_max_right _ _)⟩

/-- A command that starts a move is accepted and sets the channel, or leaves it as it was. -/
theorem startMotion_cases (motor : ι) (s : Locked ι ℚ δ) (needsLock : Prop) [Decidable needsLock]
    (set : StepperChannel ℚ δ → StepperChannel ℚ δ) :
    (startMotion motor s needsLock set).1.isOk = true ∧
        (∃ c, c.position = s.channel.position ∧ (startMotion motor s needsLock set).2.channel = set c) ∨
      (startMotion motor s needsLock set).1.isOk = false ∧
        (startMotion motor s needsLock set).2.channel = s.channel := by
  unfold startMotion
  by_cases hneeds : needsLock
  · rw [if_pos hneeds]
    unfold acquireLockForMotion
    by_cases hheld : s.channel.lockHeld = true
    · rw [if_pos hheld]
      exact Or.inl ⟨rfl, s.channel, rfl, rfl⟩
    · rw [if_neg hheld]
      rcases s.lock.tryAcquire motor with ⟨_ | _, taken⟩
      · exact Or.inr ⟨rfl, rfl⟩
      · exact Or.inl ⟨rfl, { s.channel with lockHeld := true }, rfl, rfl⟩
  · rw [if_neg hneeds]
    exact Or.inl ⟨rfl, s.channel, rfl, rfl⟩

/-- A move by an operation is refused and changes nothing, or it is accepted. -/
def MoveResult (w : StepWatch) (s : Locked ι ℚ δ) (place : ℤ) (hold : ℚ)
    (reply : Except String Unit × Locked ι ℚ δ) : Prop :=
  reply.1.isOk = false ∧ reply.2.channel = s.channel ∨ reply.1.isOk = true ∧
    (place = w.target → w.hold ≤ hold →
      w.Done reply.2.channel ∨ w.InHand reply.2.channel ∧ reply.2.channel.mode ≠ .idle)

/-- A relative move is refused, or it sends the motor on. -/
theorem moveSteps_result {w : StepWatch} (motor : ι) (s : Locked ι ℚ δ) (delta : ℤ) (hheld : 0 ≤ w.held) :
    MoveResult w s (wrap64 (s.channel.target + delta)) 0 (s.moveSteps motor delta) := by
  unfold moveSteps
  split
  · exact Or.inl ⟨rfl, rfl⟩
  dsimp only
  split
  · exact Or.inl ⟨rfl, rfl⟩
  rcases startMotion_cases motor s (wrap64 (s.channel.target + delta) ≠ s.channel.position) (fun c =>
      { c with
        target := wrap64 (s.channel.target + delta)
        holdRemainingS := 0
        retractTarget := c.position
        retractAfterHold := false
        mode := if c.position ≠ wrap64 (s.channel.target + delta) then .moving else .idle
        moving := decide (c.position ≠ wrap64 (s.channel.target + delta))
        lastSource := "cmd:MOVE" }) with ⟨hok, c, -, hset⟩ | hrefused
  · refine Or.inr ⟨hok, fun hplace hhold => ?_⟩
    rw [hset]
    exact sent_bend hheld rfl (by simp) rfl hplace hhold
  · exact Or.inl hrefused

/-- A move to a position is refused, or it sends the motor on. -/
theorem moveToSteps_result {w : StepWatch} (motor : ι) (s : Locked ι ℚ δ) (absolute : ℤ) (hold : ℚ)
    (hheld : 0 ≤ w.held) : MoveResult w s absolute hold (s.moveToSteps motor absolute hold) := by
  unfold moveToSteps
  split
  · exact Or.inl ⟨rfl, rfl⟩
  split
  · exact Or.inl ⟨rfl, rfl⟩
  split
  · exact Or.inl ⟨rfl, rfl⟩
  rcases startMotion_cases motor s (s.channel.position ≠ absolute ∨ hold > 0) (fun c =>
      { c with
        target := absolute
        holdRemainingS := hold
        retractTarget := c.position
        retractAfterHold := false
        mode := if c.position ≠ absolute then .moving else if hold > 0 then .holding else .idle
        moving := decide (c.position ≠ absolute)
        lastSource := "cmd:BEND" }) with ⟨hok, c, -, hset⟩ | hrefused
  · refine Or.inr ⟨hok, fun hplace hhold => ?_⟩
    rw [hset]
    exact sent_bend hheld rfl rfl rfl hplace hhold
  · exact Or.inl hrefused

/-- Going home is refused, or it sends the motor on. -/
theorem home_result {w : StepWatch} (motor : ι) (s : Locked ι ℚ δ) (hheld : 0 ≤ w.held) :
    MoveResult w s 0 0 (s.home motor) := by
  unfold home
  split
  · exact Or.inl ⟨rfl, rfl⟩
  rcases startMotion_cases motor s (s.channel.position ≠ 0) (fun c =>
      { c with
        target := 0
        holdRemainingS := 0
        retractTarget := 0
        retractAfterHold := false
        mode := if c.position ≠ 0 then .moving else .idle
        moving := decide (c.position ≠ 0)
        lastSource := "cmd:HOME" }) with ⟨hok, c, -, hset⟩ | hrefused
  · refine Or.inr ⟨hok, fun hplace hhold => ?_⟩
    rw [hset]
    exact sent_bend hheld rfl (by simp) rfl hplace hhold
  · exact Or.inl hrefused

/-- Another name for the source of an accepted move makes no difference. -/
theorem MoveResult.relabel {w : StepWatch} {s : Locked ι ℚ δ} {place : ℤ} {hold : ℚ}
    {reply : Except String Unit × Locked ι ℚ δ} (h : MoveResult w s place hold reply) (source : String) :
    MoveResult w s place hold (relabel source reply) := by
  obtain ⟨hreply, hcourse⟩ := relabel_course source reply
  rcases h with ⟨hrefused, hsame⟩ | ⟨hok, hsent⟩
  · refine Or.inl ⟨hreply ▸ hrefused, ?_⟩
    unfold Locked.relabel
    split
    case h_1 after => cases hrefused
    · exact hsame
  · refine Or.inr ⟨hreply ▸ hok, fun hplace hhold => ?_⟩
    rcases hsent hplace hhold with ⟨hposition, hheld⟩ | ⟨hinHand, hbusy⟩
    · exact Or.inl ⟨hcourse.position.trans hposition, hheld⟩
    · exact Or.inr ⟨hinHand.sameCourse hcourse hbusy, fun hidle => hbusy (hcourse.mode.symm.trans hidle)⟩

end Locked

namespace StepWatch

open Locked

/-- The heading is the target of the bend for no less than its hold. -/
def Resumes (w : StepWatch) : Option (ℤ × ℚ) → Prop
  | none => False
  | some (place, hold) => place = w.target ∧ w.hold ≤ hold

/-- Headings can be compared with a bend. -/
instance (w : StepWatch) : (heading : Option (ℤ × ℚ)) → Decidable (w.Resumes heading)
  | none => inferInstanceAs (Decidable False)
  | some (_, _) => inferInstanceAs (Decidable (_ ∧ _))

/-- An operation that takes a bend out of hand: a stop or a zeroing, a disable of the motor on its way or in
the hold, a pull on the free lock, a change of the divisor that moves the target, and an accepted move to
another place or for a shorter hold. -/
def Interrupts (w : StepWatch) (platform : Platform ℚ δ) (motor : ι) (s : Locked ι ℚ δ)
    (operation : Operation ℚ δ) : Prop :=
  match operation with
  | .stop | .setPositionZero => True
  | .setEnabled enable => enable = false ∧ s.channel.driver.isSome = true ∧ s.channel.mode ≠ .idle
  | .armPullCycle => s.channel.enabled = true ∧ s.lock.holder = none
  | .setMicrostep divisor => operation.accepted platform motor s = true ∧
      ¬ w.InHand { s.channel with
        position := s.channel.rescale divisor s.channel.position
        target := s.channel.rescale divisor s.channel.target
        retractTarget := s.channel.rescale divisor s.channel.retractTarget }
  | .acknowledgeStepLoss | .setSpeed _ | .setAccel _ | .setRunCurrent _ | .tick _ _ | .pulse _
  | .driverChange _ => False
  | operation => operation.accepted platform motor s = true ∧ ¬ w.Resumes (operation.heading s.channel)

/-- Whether an operation takes a bend out of hand can be decided. -/
instance (w : StepWatch) (platform : Platform ℚ δ) (motor : ι) (s : Locked ι ℚ δ) :
    (operation : Operation ℚ δ) → Decidable (w.Interrupts platform motor s operation)
  | .stop | .setPositionZero => inferInstanceAs (Decidable True)
  | .setEnabled _ => inferInstanceAs (Decidable (_ ∧ _ ∧ _ ≠ _))
  | .armPullCycle => inferInstanceAs (Decidable (_ ∧ _))
  | .setMicrostep _ => inferInstanceAs (Decidable (_ ∧ ¬_))
  | .acknowledgeStepLoss | .setSpeed _ | .setAccel _ | .setRunCurrent _ | .tick _ _ | .pulse _ | .driverChange _ =>
    inferInstanceAs (Decidable False)
  | .moveSteps _ | .moveToSteps _ _ | .moveMillimeters _ | .moveToMillimeters _ _ | .rotate _ | .home =>
    inferInstanceAs (Decidable (_ ∧ ¬_))

/-- A move that is refused, or resumes the bend, leaves it going. -/
theorem going_of_result {w : StepWatch} {s : Locked ι ℚ δ} {place : ℤ} {hold : ℚ}
    {reply : Except String Unit × Locked ι ℚ δ} (hinHand : w.InHand s.channel)
    (h : MoveResult w s place hold reply) (hok : reply.1.isOk = true → place = w.target ∧ w.hold ≤ hold) :
    w.Going reply.2.channel := by
  rcases h with ⟨-, hsame⟩ | ⟨haccepted, hsent⟩
  · rw [hsame]
    exact Or.inr hinHand
  · obtain ⟨hplace, hhold⟩ := hok haccepted
    exact (hsent hplace hhold).imp_right And.left

/-- A pull that does not get the lock leaves the channel as it was. -/
theorem armPullCycle_refused {motor : ι} {s : Locked ι ℚ δ}
    (h : ¬ (s.channel.enabled = true ∧ s.lock.holder = none)) : (s.armPullCycle motor).2 = s := by
  unfold armPullCycle
  split
  · rfl
  case isFalse henabled =>
    split
    · rfl
    case h_2 taken hacquire =>
      exact absurd ⟨by simpa using henabled, (MotionLock.tryAcquire_eq_true hacquire).1⟩ h

/-- An operation that does not interrupt a bend leaves it going. -/
theorem apply_going {w : StepWatch} (platform : Platform ℚ δ) (motor : ι) (s : Locked ι ℚ δ)
    (operation : Operation ℚ δ) (hheld : 0 ≤ w.held) (hinHand : w.InHand s.channel)
    (hok : ¬ w.Interrupts platform motor s operation) :
    (w.tally operation.duration s.channel).Going (operation.apply platform motor s).channel := by
  have hcounted (h : operation.duration = 0) : w.tally operation.duration s.channel = w := by
    rw [h, tally_zero]
  have hmove {place : ℤ} {hold : ℚ} (haccepted : operation.accepted platform motor s = true)
      (hheading : operation.heading s.channel = some (place, hold))
      (hinterrupts : w.Interrupts platform motor s operation ↔ operation.accepted platform motor s = true ∧
        ¬ w.Resumes (operation.heading s.channel)) : place = w.target ∧ w.hold ≤ hold := by
    have hresumes : w.Resumes (operation.heading s.channel) := by
      by_contra hno
      exact hok (hinterrupts.mpr ⟨haccepted, hno⟩)
    rw [hheading] at hresumes
    exact hresumes
  cases operation with
  | tick dt now => exact tick_bend platform.hal platform.sqrt motor s dt now hheld hinHand
  | pulse elapsed =>
    rw [hcounted rfl]
    exact Or.inr (pulse_bend platform.hal platform.sqrt motor s elapsed hinHand)
  | moveSteps delta =>
    rw [hcounted rfl]
    exact going_of_result hinHand (moveSteps_result motor s delta hheld) fun h => hmove h rfl Iff.rfl
  | moveToSteps absolute hold =>
    rw [hcounted rfl]
    exact going_of_result hinHand (moveToSteps_result motor s absolute hold hheld) fun h => hmove h rfl Iff.rfl
  | moveMillimeters deltaMm =>
    rw [hcounted rfl]
    simp only [Operation.accepted, moveMillimeters] at hmove
    simp only [Operation.apply, moveMillimeters]
    split
    · exact Or.inr hinHand
    case h_2 usteps husteps =>
      refine going_of_result hinHand ((moveSteps_result motor s usteps hheld).relabel _) fun h => hmove ?_ ?_ Iff.rfl
      · rw [husteps]
        exact h
      · rw [Operation.heading, husteps]
        rfl
  | moveToMillimeters absoluteMm hold =>
    rw [hcounted rfl]
    simp only [Operation.accepted, moveToMillimeters] at hmove
    simp only [Operation.apply, moveToMillimeters]
    split
    · exact Or.inr hinHand
    case h_2 usteps husteps =>
      refine going_of_result hinHand ((moveToSteps_result motor s usteps hold hheld).relabel _) fun h => hmove ?_ ?_ Iff.rfl
      · rw [husteps]
        exact h
      · rw [Operation.heading, husteps]
        rfl
  | rotate revolutions =>
    rw [hcounted rfl]
    simp only [Operation.apply, rotate]
    split
    · exact Or.inr hinHand
    case isFalse hrev =>
      refine going_of_result hinHand (moveSteps_result motor s _ hheld) fun h => hmove ?_ rfl Iff.rfl
      simpa only [Operation.accepted, rotate, if_neg hrev] using h
  | home =>
    rw [hcounted rfl]
    exact going_of_result hinHand (home_result motor s hheld) fun h => hmove h rfl Iff.rfl
  | stop => exact absurd trivial hok
  | setPositionZero => exact absurd trivial hok
  | acknowledgeStepLoss =>
    rw [hcounted rfl]
    exact Or.inr (hinHand.same ⟨⟨⟨rfl, rfl, rfl, rfl, rfl, rfl⟩, rfl⟩, rfl⟩)
  | setSpeed fullStepHz =>
    rw [hcounted rfl]
    exact Or.inr (hinHand.same (setSpeed_way _ _))
  | setAccel accel =>
    rw [hcounted rfl]
    exact Or.inr (hinHand.same (setAccel_way _ _ _))
  | setRunCurrent aRms =>
    rw [hcounted rfl]
    exact Or.inr (hinHand.same (setRunCurrent_way _ _ _))
  | setMicrostep divisor =>
    rw [hcounted rfl]
    by_cases haccepted : (s.channel.setMicrostep platform.hal divisor).1.isOk = true
    · have hrescaled := not_not.mp fun hbad => hok ⟨haccepted, hbad⟩
      exact Or.inr (InHand.same hrescaled (setMicrostep_accepted_way haccepted))
    · exact Or.inr (hinHand.same (setMicrostep_refused_way haccepted))
  | setEnabled enable =>
    rw [hcounted rfl]
    simp only [Operation.apply, setEnabled]
    split
    · exact Or.inr hinHand
    case h_2 d hdriver =>
      split
      case isTrue hoff =>
        have hidle : s.channel.mode = .idle := by
          by_contra hbusy
          exact hok ⟨by simpa using hoff, by rw [hdriver]; rfl, hbusy⟩
        unfold InHand at hinHand
        rw [hidle] at hinHand
        refine Or.inr (InHand.same ?_ (releaseLockIfHeld_way motor _))
        rw [if_neg (by simp [hidle])]
        exact inHand_idle rfl hinHand
      · split
        · exact Or.inr (hinHand.same ⟨⟨⟨rfl, rfl, rfl, rfl, rfl, rfl⟩, rfl⟩, rfl⟩)
        · exact Or.inr (hinHand.same ⟨⟨⟨rfl, rfl, rfl, rfl, rfl, rfl⟩, rfl⟩, rfl⟩)
  | armPullCycle =>
    rw [hcounted rfl]
    simp only [Operation.apply]
    rw [armPullCycle_refused hok]
    exact Or.inr hinHand
  | driverChange after =>
    rw [hcounted rfl]
    exact Or.inr (hinHand.same ⟨⟨⟨rfl, rfl, rfl, rfl, rfl, rfl⟩, rfl⟩, rfl⟩)

/-- An operation that does not interrupt an unfinished bend keeps it followed. -/
theorem apply_followed {w : StepWatch} (platform : Platform ℚ δ) (motor : ι) (s : Locked ι ℚ δ)
    (operation : Operation ℚ δ) (h : w.Followed s.channel)
    (hok : w.finished = false → ¬ w.Interrupts platform motor s operation) :
    (w.seenBy operation s.channel (operation.apply platform motor s).channel).Followed
      (operation.apply platform motor s).channel := by
  obtain ⟨hheld, hfinished | hinHand⟩ := h
  · exact ⟨seenBy_held hheld _ _ _, Or.inl (seenBy_finished hfinished _ _ _)⟩
  cases hfinished : w.finished with
  | true => exact ⟨seenBy_held hheld _ _ _, Or.inl (seenBy_finished hfinished _ _ _)⟩
  | false =>
    have hgoing := apply_going platform motor s operation hheld hinHand (hok hfinished)
    have hseen : w.seenBy operation s.channel (operation.apply platform motor s).channel =
        w.seen operation.duration s.channel (operation.apply platform motor s).channel := by
      cases operation with
      | setPositionZero => exact absurd trivial (hok hfinished)
      | _ => rfl
    rw [hseen]
    exact followed_seen hheld (Or.inr hgoing)

end StepWatch

namespace Watched

/-- The operation interrupts no unfinished bend of the motors that are looked after. -/
def LeftAlone (platform : Platform ℚ δ) (cared : ι → Prop) (s : Watched ι δ)
    (input : ι × Operation ℚ δ) : Prop :=
  cared input.1 → ∀ w ∈ s.watches input.1, w.finished = false →
    ¬ w.Interrupts platform input.1 (s.rig.locked input.1) input.2

/-- Whether an operation leaves the bends alone can be decided. -/
instance (platform : Platform ℚ δ) (cared : ι → Prop) [DecidablePred cared] (s : Watched ι δ)
    (input : ι × Operation ℚ δ) : Decidable (s.LeftAlone platform cared input) :=
  inferInstanceAs (Decidable (_ → ∀ w ∈ s.watches input.1, _ → ¬ _))

/-- The bends of the motors that are looked after are followed. -/
def Followed (cared : ι → Prop) (s : Watched ι δ) : Prop :=
  ∀ motor, cared motor → ∀ w, s.watches motor = some w → w.Followed (s.rig.channels motor)

/-- A run of operations that leave the bends alone keeps them followed. -/
theorem followed_run (platform : Platform ℚ δ) {cared : ι → Prop} {s : Watched ι δ}
    {inputs : List (ι × Operation ℚ δ)} (h : s.Followed cared)
    (hok : Meets (step platform) (LeftAlone platform cared) s inputs) :
    (run (step platform) s inputs).Followed cared := by
  refine run_invariant (fun s input h hok => ?_) h hok
  exact keeps_step platform h fun hcared w hw hfollowed =>
    StepWatch.apply_followed platform input.1 (s.rig.locked input.1) input.2 hfollowed (hok hcared w hw)

end Watched

end Coatheal.Motion
