import Coatheal.Motion.Rig

/-!
# A step of a sequence and its hold

An onlooker follows one step: where it goes, how long it has to be held, and how
long the motor has held it so far. A step that is not over yet is sound while
the motor does not rest at its target and will not come to rest there before the
hold is over. Everything a channel does keeps a step sound, except a short list
of operations and faults that end a move or a hold at the target too early.
-/

set_option linter.unusedSectionVars false

namespace Coatheal.Motion

open Coatheal.Library

variable {ι δ : Type*} [DecidableEq ι]

/-- A step as the onlooker follows it: its target and hold, the time the motor has held there without a
break, and whether it was reached and held for as long as it should be. -/
structure StepWatch where
  target : ℤ
  hold : ℚ
  held : ℚ
  finished : Bool
deriving DecidableEq

/-- Two states of a channel on one leg. -/
structure SameLeg (c after : StepperChannel ℚ δ) : Prop where
  mode : after.mode = c.mode
  moving : after.moving = c.moving
  target : after.target = c.target
  hold : after.holdRemainingS = c.holdRemainingS
  retractTarget : after.retractTarget = c.retractTarget
  retractAfterHold : after.retractAfterHold = c.retractAfterHold

/-- Two states of a channel on one leg at one position. -/
structure SameCourse (c after : StepperChannel ℚ δ) : Prop extends SameLeg c after where
  position : after.position = c.position

/-- Legs compose. -/
theorem SameLeg.trans {c middle after : StepperChannel ℚ δ} (hfirst : SameLeg c middle)
    (hsecond : SameLeg middle after) : SameLeg c after :=
  ⟨hsecond.mode.trans hfirst.mode, hsecond.moving.trans hfirst.moving,
    hsecond.target.trans hfirst.target, hsecond.hold.trans hfirst.hold,
    hsecond.retractTarget.trans hfirst.retractTarget,
    hsecond.retractAfterHold.trans hfirst.retractAfterHold⟩

/-- A motor that steps stays on its leg. -/
theorem SameLeg.stepped {c after : StepperChannel ℚ δ} (h : SameLeg c after) (position : ℤ) :
    SameLeg c { after with position := position } :=
  ⟨h.mode, h.moving, h.target, h.hold, h.retractTarget, h.retractAfterHold⟩

/-- Every channel is on its own course. -/
theorem SameCourse.refl (c : StepperChannel ℚ δ) : SameCourse c c :=
  ⟨⟨rfl, rfl, rfl, rfl, rfl, rfl⟩, rfl⟩

/-- Courses compose. -/
theorem SameCourse.trans {c middle after : StepperChannel ℚ δ} (hfirst : SameCourse c middle)
    (hsecond : SameCourse middle after) : SameCourse c after :=
  ⟨hfirst.toSameLeg.trans hsecond.toSameLeg, hsecond.position.trans hfirst.position⟩

namespace Locked

open StepperChannel

/-- Absorbing step-loss events keeps the course. -/
theorem absorbDriverStepLoss_course (hal : StepperDriver ℚ δ) (c : StepperChannel ℚ δ) :
    SameCourse c (absorbDriverStepLoss hal c).2 := by
  unfold absorbDriverStepLoss
  split
  · exact ⟨⟨rfl, rfl, rfl, rfl, rfl, rfl⟩, rfl⟩
  · dsimp only
    split
    · exact ⟨⟨rfl, rfl, rfl, rfl, rfl, rfl⟩, rfl⟩
    · exact ⟨⟨rfl, rfl, rfl, rfl, rfl, rfl⟩, rfl⟩

/-- So does absorbing them from a driver that has been called. -/
theorem absorbCalled_course (hal : StepperDriver ℚ δ) (c : StepperChannel ℚ δ) (called : Option δ) :
    SameCourse c (absorbDriverStepLoss hal { c with driver := called }).2 := by
  have hcalled : SameCourse c { c with driver := called } := ⟨⟨rfl, rfl, rfl, rfl, rfl, rfl⟩, rfl⟩
  exact hcalled.trans (absorbDriverStepLoss_course hal { c with driver := called })

/-- The ramp keeps the course. -/
theorem updateRampSpeed_course (sqrt : ℚ → ℚ) (c : StepperChannel ℚ δ) (dt : ℚ) (remaining : ℤ) :
    SameCourse c (updateRampSpeed sqrt c dt remaining) := by
  unfold updateRampSpeed
  split
  · exact ⟨⟨rfl, rfl, rfl, rfl, rfl, rfl⟩, rfl⟩
  split
  · exact ⟨⟨rfl, rfl, rfl, rfl, rfl, rfl⟩, rfl⟩
  · exact ⟨⟨rfl, rfl, rfl, rfl, rfl, rfl⟩, rfl⟩

/-- Reporting the rate keeps the course. -/
theorem reportStepRateToDriver_course (hal : StepperDriver ℚ δ) (c : StepperChannel ℚ δ) :
    SameCourse c (reportStepRateToDriver hal c) := by
  unfold reportStepRateToDriver
  split
  · exact ⟨⟨rfl, rfl, rfl, rfl, rfl, rfl⟩, rfl⟩
  · exact ⟨⟨rfl, rfl, rfl, rfl, rfl, rfl⟩, rfl⟩

/-- Working out the due pulses keeps the course. -/
theorem duePulses_course (hal : StepperDriver ℚ δ) (sqrt : ℚ → ℚ) (c : StepperChannel ℚ δ) (dt : ℚ) :
    SameCourse c (duePulses hal sqrt c dt).2 :=
  ((updateRampSpeed_course sqrt c dt _).trans (reportStepRateToDriver_course hal _)).trans
    ⟨⟨rfl, rfl, rfl, rfl, rfl, rfl⟩, rfl⟩

/-- A speed command keeps the course. -/
theorem setSpeed_course (c : StepperChannel ℚ δ) (hz : ℚ) : SameCourse c (c.setSpeed hz).2 := by
  unfold setSpeed
  split
  · exact ⟨⟨rfl, rfl, rfl, rfl, rfl, rfl⟩, rfl⟩
  · exact ⟨⟨rfl, rfl, rfl, rfl, rfl, rfl⟩, rfl⟩

/-- An acceleration command keeps the course. -/
theorem setAccel_course (shown : ℚ → String) (c : StepperChannel ℚ δ) (accel : Option ℚ) :
    SameCourse c (c.setAccel shown accel).2 := by
  unfold setAccel
  split
  · exact ⟨⟨rfl, rfl, rfl, rfl, rfl, rfl⟩, rfl⟩
  split
  · exact ⟨⟨rfl, rfl, rfl, rfl, rfl, rfl⟩, rfl⟩
  split
  · exact ⟨⟨rfl, rfl, rfl, rfl, rfl, rfl⟩, rfl⟩
  · exact ⟨⟨rfl, rfl, rfl, rfl, rfl, rfl⟩, rfl⟩

/-- A current command keeps the course. -/
theorem setRunCurrent_course (hal : StepperDriver ℚ δ) (c : StepperChannel ℚ δ) (aRms : ℚ) :
    SameCourse c (c.setRunCurrent hal aRms).2 := by
  unfold setRunCurrent
  split
  · exact ⟨⟨rfl, rfl, rfl, rfl, rfl, rfl⟩, rfl⟩
  · exact ⟨⟨rfl, rfl, rfl, rfl, rfl, rfl⟩, rfl⟩

/-- Giving the lock back keeps the course. -/
theorem releaseLockIfHeld_course (motor : ι) (s : Locked ι ℚ δ) :
    SameCourse s.channel (releaseLockIfHeld motor s).channel := by
  unfold releaseLockIfHeld
  split
  · exact ⟨⟨rfl, rfl, rfl, rfl, rfl, rfl⟩, rfl⟩
  · exact ⟨⟨rfl, rfl, rfl, rfl, rfl, rfl⟩, rfl⟩

/-- The driver ends a move with the motor at a place: it asks for a stop, or it refuses a step. -/
def faultsAt (hal : StepperDriver ℚ δ) (forward : Bool) (place : ℤ) : ℕ → StepperChannel ℚ δ → Prop
  | 0, _ => False
  | left + 1, c =>
    match c.driver with
    | none => False
    | some d =>
      let (stepped, after) := hal.step d forward
      let (stop, absorbed) := absorbDriverStepLoss hal { c with driver := some after }
      let position := if stepped then absorbed.position + if forward then 1 else -1 else absorbed.position
      if stop ∨ stepped = false then position = place
      else faultsAt hal forward place left { absorbed with position := position }

/-- The replies of the driver can be followed. -/
instance decidableFaultsAt (hal : StepperDriver ℚ δ) (forward : Bool) (place : ℤ) :
    (left : ℕ) → (c : StepperChannel ℚ δ) → Decidable (faultsAt hal forward place left c)
  | 0, _ => inferInstanceAs (Decidable False)
  | left + 1, c => by
    have rest := decidableFaultsAt hal forward place left
    unfold faultsAt
    cases c.driver with
    | none => exact inferInstanceAs (Decidable False)
    | some d =>
      dsimp only
      infer_instance

/-- The driver ends a move with the motor at a place while pulses are issued. -/
def issueFaultsAt (hal : StepperDriver ℚ δ) (place : ℤ) (c : StepperChannel ℚ δ) (allowed : ℤ) : Prop :=
  c.enabled = true ∧ 0 < allowed ∧
    faultsAt hal (decide (c.target > c.position)) place (min allowed |c.target - c.position|).toNat c

/-- So can its replies to pulses. -/
instance (hal : StepperDriver ℚ δ) (place : ℤ) (c : StepperChannel ℚ δ) (allowed : ℤ) :
    Decidable (issueFaultsAt hal place c allowed) :=
  inferInstanceAs (Decidable (_ ∧ _ ∧ _))

end Locked

namespace StepWatch

/-- The part of a tick that the motor spends in its hold at the target. -/
def heldFor (w : StepWatch) (c : StepperChannel ℚ δ) (dt : ℚ) : ℚ :=
  if c.mode = .holding ∧ c.position = w.target ∧ 0 < dt then dt else 0

/-- The watch with the time of a tick counted. -/
def tally (w : StepWatch) (dt : ℚ) (c : StepperChannel ℚ δ) : StepWatch :=
  { w with held := w.held + w.heldFor c dt }

/-- The motor is at the target and has held it for as long as it should. -/
def Done (w : StepWatch) (c : StepperChannel ℚ δ) : Prop := c.position = w.target ∧ w.hold ≤ w.held

/-- What the onlooker knows after a change of the channel. -/
def seen (w : StepWatch) (dt : ℚ) (c after : StepperChannel ℚ δ) : StepWatch :=
  let counted := w.tally dt c
  { counted with
    held := if after.position = w.target then counted.held else 0
    finished := w.finished || decide (after.position = w.target ∧ w.hold ≤ counted.held) }

/-- The motor does not rest at the target and is not bound to rest there before its time. -/
def Bound (w : StepWatch) (c : StepperChannel ℚ δ) : Prop :=
  match c.mode with
  | .idle => c.position ≠ w.target
  | .retracting => c.target ≠ w.target ∨ w.hold ≤ 0
  | .moving =>
    if c.retractAfterHold = true ∧ 0 < c.holdRemainingS then c.retractTarget ≠ w.target ∨ w.hold ≤ 0
    else c.target ≠ w.target ∨ w.hold ≤ max 0 c.holdRemainingS
  | .holding =>
    if c.retractAfterHold = true then c.retractTarget ≠ w.target ∨ w.hold ≤ 0
    else c.position ≠ w.target ∨ w.hold ≤ w.held + c.holdRemainingS

/-- Whether a motor is bound is decided by its mode. -/
instance (w : StepWatch) (c : StepperChannel ℚ δ) : Decidable (w.Bound c) := by
  unfold Bound
  cases c.mode with
  | _ => infer_instance

/-- A motor on its way says so. -/
def Flagged (c : StepperChannel ℚ δ) : Prop :=
  c.mode = .moving ∨ c.mode = .retracting → c.moving = true

/-- The step is over, or the motor is bound elsewhere for now. -/
def Sound (w : StepWatch) (c : StepperChannel ℚ δ) : Prop := w.Done c ∨ w.Bound c ∧ Flagged c

/-- What the onlooker relies on: the step was finished, or it is sound. -/
def Tracked (w : StepWatch) (c : StepperChannel ℚ δ) : Prop :=
  0 ≤ w.held ∧ (w.finished = true ∨ w.Bound c ∧ Flagged c)

/-- A tick counts no negative time. -/
theorem heldFor_nonneg (w : StepWatch) (c : StepperChannel ℚ δ) (dt : ℚ) : 0 ≤ w.heldFor c dt := by
  unfold heldFor
  split
  case isTrue h => exact h.2.2.le
  case isFalse => exact le_rfl

/-- More time in the hold, or a motor elsewhere, leaves the bound. -/
theorem Bound.mono {w w' : StepWatch} {c : StepperChannel ℚ δ} (h : w.Bound c)
    (htarget : w'.target = w.target) (hhold : w'.hold = w.hold)
    (hheld : c.position = w.target → w.held ≤ w'.held) : w'.Bound c := by
  unfold Bound at h ⊢
  rw [htarget, hhold]
  cases hmode : c.mode with
  | holding =>
    simp only [hmode] at h ⊢
    split
    case isTrue hretract => rwa [if_pos hretract] at h
    case isFalse hretract =>
      rw [if_neg hretract] at h
      by_cases hposition : c.position = w.target
      · have hremaining := h.resolve_left (not_not.mpr hposition)
        exact Or.inr (hremaining.trans (by linarith [hheld hposition]))
      · exact Or.inl hposition
  | _ =>
    simp only [hmode] at h ⊢
    exact h

/-- A sound channel is tracked once it was seen. -/
theorem tracked_seen {w : StepWatch} {dt : ℚ} {c after : StepperChannel ℚ δ} (hheld : 0 ≤ w.held)
    (h : w.finished = true ∨ (w.tally dt c).Sound after) : (w.seen dt c after).Tracked after := by
  have hcounted : 0 ≤ (w.tally dt c).held := add_nonneg hheld (w.heldFor_nonneg c dt)
  refine ⟨?_, ?_⟩
  · unfold seen
    dsimp only
    split
    · exact hcounted
    · exact le_rfl
  rcases h with hfinished | hdone | ⟨hbound, hflagged⟩
  · exact Or.inl (by simp [seen, hfinished])
  · have hdone : after.position = w.target ∧ w.hold ≤ (w.tally dt c).held := hdone
    exact Or.inl (by simp [seen, hdone])
  · refine Or.inr ⟨hbound.mono rfl rfl fun hposition => ?_, hflagged⟩
    have hposition : after.position = w.target := hposition
    simp [seen, hposition]

/-- A channel on the same course is bound as before. -/
theorem Bound.same {w : StepWatch} {c after : StepperChannel ℚ δ} (h : w.Bound c)
    (hsame : SameCourse c after) : w.Bound after := by
  unfold Bound at h ⊢
  rw [hsame.mode, hsame.position, hsame.target, hsame.hold, hsame.retractTarget, hsame.retractAfterHold]
  exact h

/-- A motor on its way is bound as before on the same leg, wherever it has come. -/
theorem Bound.sameLeg {w : StepWatch} {c after : StepperChannel ℚ δ} (h : w.Bound c)
    (hleg : SameLeg c after) (hmode : c.mode = .moving ∨ c.mode = .retracting) : w.Bound after := by
  unfold Bound at h ⊢
  rw [hleg.mode, hleg.target, hleg.hold, hleg.retractTarget, hleg.retractAfterHold]
  rcases hmode with hmoving | hretracting
  · rw [hmoving] at h ⊢
    exact h
  · rw [hretracting] at h ⊢
    exact h

/-- A channel on the same leg says so as before. -/
theorem Flagged.sameLeg {c after : StepperChannel ℚ δ} (h : Flagged c) (hleg : SameLeg c after) :
    Flagged after := by
  unfold Flagged at h ⊢
  rw [hleg.mode, hleg.moving]
  exact h

/-- A channel on the same course is sound as before. -/
theorem Sound.same {w : StepWatch} {c after : StepperChannel ℚ δ} (h : w.Sound c)
    (hsame : SameCourse c after) : w.Sound after := by
  rcases h with ⟨hposition, hhold⟩ | ⟨hbound, hflagged⟩
  · exact Or.inl ⟨hsame.position.trans hposition, hhold⟩
  · exact Or.inr ⟨hbound.same hsame, hflagged.sameLeg hsame.toSameLeg⟩

/-- A motor that holds is not on its way. -/
theorem flagged_holding {c : StepperChannel ℚ δ} (hmode : c.mode = .holding) : Flagged c := by
  intro hbusy
  rw [hmode] at hbusy
  rcases hbusy with hbusy | hbusy
  all_goals cases hbusy

/-- A motor at rest is sound when it is not at the target too early. -/
theorem sound_idle {w : StepWatch} {c : StepperChannel ℚ δ} (hmode : c.mode = .idle)
    (h : c.position = w.target → w.hold ≤ w.held) : w.Sound c := by
  by_cases hposition : c.position = w.target
  · exact Or.inl ⟨hposition, h hposition⟩
  · refine Or.inr ⟨?_, ?_⟩
    · unfold Bound
      rw [hmode]
      exact hposition
    · intro hbusy
      rw [hmode] at hbusy
      rcases hbusy with hbusy | hbusy
      all_goals cases hbusy

/-- The time of a tick counts for the same hold on the same course. -/
theorem tally_same {w : StepWatch} {dt : ℚ} {c after : StepperChannel ℚ δ} (hsame : SameCourse c after) :
    w.tally dt after = w.tally dt c := by
  unfold tally heldFor
  rw [hsame.mode, hsame.position]

/-- Counting time leaves the bound. -/
theorem Bound.tally {w : StepWatch} {c : StepperChannel ℚ δ} (h : w.Bound c) (dt : ℚ)
    (before : StepperChannel ℚ δ) : (w.tally dt before).Bound c :=
  h.mono rfl rfl fun _ => le_add_of_nonneg_right (w.heldFor_nonneg before dt)

end StepWatch

namespace Locked

open StepperChannel StepWatch

/-- The pulse loop stays on its leg, or a fault of the driver ends it, and not at the target of a step
whose hold is not over. -/
theorem issueLoop_leg {w : StepWatch} (hal : StepperDriver ℚ δ) (motor : ι) (forward : Bool) (left : ℕ)
    (issued : ℤ) (s : Locked ι ℚ δ)
    (hok : faultsAt hal forward w.target left s.channel → w.hold ≤ w.held) :
    let after := (issueLoop hal motor forward left issued s).2.channel
    SameLeg s.channel after ∨ after.mode = .idle ∧ (after.position = w.target → w.hold ≤ w.held) := by
  induction left generalizing issued s with
  | zero => exact Or.inl (SameCourse.refl _).toSameLeg
  | succ left ih =>
    unfold issueLoop
    unfold faultsAt at hok
    cases hdriver : s.channel.driver with
    | none => exact Or.inl (SameCourse.refl _).toSameLeg
    | some d =>
      simp only [hdriver] at hok ⊢
      have hcourse := absorbCalled_course hal s.channel (some (hal.step d forward).2)
      cases hstepped : (hal.step d forward).1 with
      | true =>
        simp only [hstepped, if_true, Bool.true_eq_false, or_false] at hok ⊢
        split
        case isTrue hstop =>
          rw [if_pos hstop] at hok
          exact Or.inr ⟨((releaseLockIfHeld_course motor _).mode).trans rfl, fun hposition =>
            hok (((releaseLockIfHeld_course motor _).position).symm.trans hposition)⟩
        case isFalse hstop =>
          rw [if_neg hstop] at hok
          refine (ih _ ⟨s.lock, _⟩ hok).imp_left fun hleg => ?_
          exact (hcourse.toSameLeg.stepped _).trans hleg
      | false =>
        simp only [hstepped, Bool.false_eq_true, if_false, or_true, if_true] at hok ⊢
        split
        case isTrue hstop =>
          exact Or.inr ⟨((releaseLockIfHeld_course motor _).mode).trans rfl, fun hposition =>
            hok (((releaseLockIfHeld_course motor _).position).symm.trans hposition)⟩
        case isFalse hstop =>
          split
          · exact Or.inl hcourse.toSameLeg
          · unfold stepRefused
            refine Or.inr ⟨((releaseLockIfHeld_course motor _).mode).trans rfl, fun hposition => hok ?_⟩
            rw [← hposition, (releaseLockIfHeld_course motor _).position]
            dsimp only
            split
            · rfl
            · rfl

/-- Issuing pulses stays on the leg, or a fault ends it, and not at the target of a step whose hold is
not over. -/
theorem issuePulses_leg {w : StepWatch} (hal : StepperDriver ℚ δ) (motor : ι) (s : Locked ι ℚ δ)
    (allowed : ℤ) (hok : issueFaultsAt hal w.target s.channel allowed → w.hold ≤ w.held) :
    let after := (issuePulses hal motor s allowed).2.channel
    SameLeg s.channel after ∨ after.mode = .idle ∧ (after.position = w.target → w.hold ≤ w.held) := by
  unfold issuePulses
  dsimp only
  split
  · exact Or.inl (SameCourse.refl _).toSameLeg
  case isFalse hrefused =>
    simp only [not_or, not_not, not_le] at hrefused
    split
    · exact Or.inl (SameCourse.refl _).toSameLeg
    have hloop := issueLoop_leg hal motor (decide (s.channel.target > s.channel.position))
      (min allowed |s.channel.target - s.channel.position|).toNat 0 s
      fun hfault => hok ⟨hrefused.2.1, hrefused.2.2, hfault⟩
    split
    · refine hloop.imp (fun hleg => hleg.trans (absorbCalled_course hal _ _).toSameLeg)
        fun ⟨hidle, hplace⟩ => ?_
      refine ⟨(absorbCalled_course hal _ _).mode.trans hidle, fun hposition => hplace ?_⟩
      exact (absorbCalled_course hal _ _).position.symm.trans hposition
    · exact hloop

/-- The end of a leg is sound when its leg was bound, or the leg was ended by a fault that is. -/
theorem endLeg_sound {w : StepWatch} (motor : ι) (s : Locked ι ℚ δ) (hheld : 0 ≤ w.held)
    (hplace : s.channel.position = s.channel.target)
    (h : (s.channel.mode = .moving ∨ s.channel.mode = .retracting) ∧ w.Bound s.channel ∨
      s.channel.mode = .idle ∧ (s.channel.position = w.target → w.hold ≤ w.held)) :
    w.Sound (endLeg motor s).channel := by
  unfold endLeg
  rcases h with ⟨hbusy, hbound⟩ | ⟨hidle, hrest⟩
  · unfold Bound at hbound
    split
    case isTrue hhold =>
      -- the hold at the target begins
      rw [hhold.1] at hbound
      dsimp only at hbound
      refine Or.inr ⟨?_, flagged_holding rfl⟩
      unfold Bound
      dsimp only
      rw [hplace]
      by_cases hretract : s.channel.retractAfterHold = true
      · rw [if_pos ⟨hretract, hhold.2⟩] at hbound
        rwa [if_pos hretract]
      · rw [if_neg fun h => hretract h.1] at hbound
        rw [if_neg hretract]
        rw [max_eq_right hhold.2.le] at hbound
        exact hbound.imp_right fun h => h.trans (le_add_of_nonneg_left hheld)
    case isFalse hhold =>
      -- the motor comes to rest at the end of its last leg
      have hrest : s.channel.position = w.target → w.hold ≤ w.held := by
        intro hposition
        have htarget : s.channel.target = w.target := hplace.symm.trans hposition
        rcases hbusy with hmode | hmode
        · rw [hmode] at hbound
          dsimp only at hbound
          have hshort : ¬ 0 < s.channel.holdRemainingS := fun hpos => hhold ⟨hmode, hpos⟩
          rw [if_neg fun h => hshort h.2] at hbound
          rw [max_eq_left (not_lt.mp hshort)] at hbound
          exact (hbound.resolve_left (not_not.mpr htarget)).trans hheld
        · rw [hmode] at hbound
          exact (hbound.resolve_left (not_not.mpr htarget)).trans hheld
      split
      · refine Sound.same ?_ (releaseLockIfHeld_course motor _)
        exact sound_idle rfl hrest
      · refine Sound.same ?_ (releaseLockIfHeld_course motor _)
        exact sound_idle rfl hrest
  · rw [if_neg (by simp [hidle]), if_neg (by simp [hidle])]
    refine Sound.same ?_ (releaseLockIfHeld_course motor _)
    exact sound_idle rfl hrest

/-- A tick of a hold is sound: the hold at the target ends when its time has passed. -/
theorem tickHolding_sound {w : StepWatch} (motor : ι) (s : Locked ι ℚ δ) {dt : ℚ} (hheld : 0 ≤ w.held)
    (hdt : 0 < dt) (hmode : s.channel.mode = .holding) (hbound : w.Bound s.channel) :
    (w.tally dt s.channel).Sound (tickHolding motor s dt).channel := by
  unfold Bound at hbound
  rw [hmode] at hbound
  dsimp only at hbound
  have hnonneg : 0 ≤ (w.tally dt s.channel).held := add_nonneg hheld (w.heldFor_nonneg _ dt)
  have hcount : s.channel.position = w.target → (w.tally dt s.channel).held = w.held + dt := by
    intro hposition
    simp [tally, heldFor, hmode, hposition, hdt]
  unfold tickHolding
  dsimp only
  by_cases hretract : s.channel.retractAfterHold = true
  · rw [if_pos hretract] at hbound
    split
    · split
      · exact Or.inr ⟨hbound, fun _ => rfl⟩
      case isFalse hplace =>
        refine Sound.same ?_ (releaseLockIfHeld_course motor _)
        refine sound_idle rfl fun hposition => ?_
        have htarget : s.channel.retractTarget = w.target := (not_not.mp hplace).symm.trans hposition
        exact (hbound.resolve_left (not_not.mpr htarget)).trans hnonneg
    · refine Or.inr ⟨?_, flagged_holding hmode⟩
      unfold Bound
      simp only [hmode, hretract, if_true]
      exact hbound
  · rw [if_neg hretract] at hbound
    split
    case isTrue hover =>
      refine Sound.same ?_ (releaseLockIfHeld_course motor _)
      refine sound_idle rfl fun hposition => ?_
      have hleft := hbound.resolve_left (not_not.mpr hposition)
      have hshort : s.channel.holdRemainingS - dt ≤ 0 := (le_max_right _ _).trans hover
      rw [hcount hposition]
      exact hleft.trans (by linarith)
    case isFalse hover =>
      refine Or.inr ⟨?_, flagged_holding hmode⟩
      unfold Bound
      simp only [hmode, hretract]
      by_cases hposition : s.channel.position = w.target
      · have hleft := hbound.resolve_left (not_not.mpr hposition)
        have hlong : s.channel.holdRemainingS - dt ≤ max 0 (s.channel.holdRemainingS - dt) :=
          le_max_right _ _
        refine Or.inr (hleft.trans ?_)
        rw [hcount hposition]
        linarith
      · exact Or.inl hposition

/-- A tick that issues pulses is sound unless the driver ends the move at the target. -/
theorem tickPulses_sound {w : StepWatch} (hal : StepperDriver ℚ δ) (sqrt : ℚ → ℚ) (motor : ι)
    (s : Locked ι ℚ δ) (dt : ℚ) (hheld : 0 ≤ w.held)
    (hmode : s.channel.mode = .moving ∨ s.channel.mode = .retracting) (hbound : w.Bound s.channel)
    (hok : issueFaultsAt hal w.target (duePulses hal sqrt s.channel dt).2
      (duePulses hal sqrt s.channel dt).1 → w.hold ≤ w.held) :
    w.Sound (tickPulses hal sqrt motor s dt).channel := by
  have hdue := duePulses_course hal sqrt s.channel dt
  have hissued := issuePulses_leg hal motor ⟨s.lock, (duePulses hal sqrt s.channel dt).2⟩
    (duePulses hal sqrt s.channel dt).1 hok
  dsimp only at hissued
  unfold tickPulses
  dsimp only
  generalize (issuePulses hal motor ⟨s.lock, (duePulses hal sqrt s.channel dt).2⟩
    (duePulses hal sqrt s.channel dt).1).2 = after at hissued ⊢
  have hleg : SameLeg s.channel after.channel ∨
      after.channel.mode = .idle ∧ (after.channel.position = w.target → w.hold ≤ w.held) :=
    hissued.imp_left fun h => hdue.toSameLeg.trans h
  rcases hleg with hleg | hrest
  · have hafter := hbound.sameLeg hleg hmode
    have hbusy : after.channel.mode = .moving ∨ after.channel.mode = .retracting := by rwa [hleg.mode]
    split
    · exact Or.inr ⟨hafter, fun _ => rfl⟩
    case isFalse hplace =>
      exact endLeg_sound motor _ hheld (not_not.mp hplace) (Or.inl ⟨hbusy, hafter⟩)
  · split
    · exact sound_idle hrest.1 hrest.2
    case isFalse hplace => exact endLeg_sound motor _ hheld (not_not.mp hplace) (Or.inr hrest)

/-- The driver ends what the mode asks for with the motor at a place. -/
def motionFaultsAt (hal : StepperDriver ℚ δ) (sqrt : ℚ → ℚ) (place : ℤ) (c : StepperChannel ℚ δ)
    (dt : ℚ) : Prop :=
  (c.mode = .moving ∨ c.mode = .retracting) ∧ c.position ≠ c.target ∧ c.cfg.usePulseThread = false ∧
    issueFaultsAt hal place (duePulses hal sqrt c dt).2 (duePulses hal sqrt c dt).1

/-- So can its replies to what the mode asks for. -/
instance (hal : StepperDriver ℚ δ) (sqrt : ℚ → ℚ) (place : ℤ) (c : StepperChannel ℚ δ) (dt : ℚ) :
    Decidable (motionFaultsAt hal sqrt place c dt) :=
  inferInstanceAs (Decidable (_ ∧ _ ∧ _ ∧ _))

/-- What the mode asks for is sound unless the driver ends it at the target. -/
theorem tickMotion_sound {w : StepWatch} (hal : StepperDriver ℚ δ) (sqrt : ℚ → ℚ) (motor : ι)
    (s : Locked ι ℚ δ) {dt : ℚ} (hheld : 0 ≤ w.held) (hdt : 0 < dt) (hbound : w.Bound s.channel)
    (hok : motionFaultsAt hal sqrt w.target s.channel dt →
      w.hold ≤ (w.tally dt s.channel).held) :
    (w.tally dt s.channel).Sound (tickMotion hal sqrt motor s dt).channel := by
  have hnonneg : 0 ≤ (w.tally dt s.channel).held := add_nonneg hheld (w.heldFor_nonneg _ dt)
  have hcounted := hbound.tally dt s.channel
  have hleg (hmode : s.channel.mode = .moving ∨ s.channel.mode = .retracting) :
      (w.tally dt s.channel).Sound (if s.channel.position = s.channel.target then
        endLeg motor ⟨s.lock, { s.channel with moving := false, currentStepHz := 0 }⟩
        else if s.channel.cfg.usePulseThread then ⟨s.lock, { s.channel with moving := true }⟩
        else tickPulses hal sqrt motor s dt).channel := by
    split
    case isTrue hplace => exact endLeg_sound motor _ hnonneg hplace (Or.inl ⟨hmode, hcounted⟩)
    case isFalse hplace =>
      split
      · exact Or.inr ⟨hcounted, fun _ => rfl⟩
      case isFalse hthread =>
        exact tickPulses_sound hal sqrt motor s dt hnonneg hmode hcounted
          fun hfault => hok ⟨hmode, hplace, by simpa using hthread, hfault⟩
  unfold tickMotion
  split
  case h_1 hmode => exact tickHolding_sound motor s hheld hdt hmode hbound
  case h_2 hmode =>
    unfold Bound at hbound
    rw [hmode] at hbound
    exact sound_idle hmode fun hposition => absurd hposition hbound
  case h_3 hmode => exact hleg (Or.inl hmode)
  case h_4 hmode => exact hleg (Or.inr hmode)

/-- The driver ends a tick's move or hold with the motor at a place. -/
def tickFaultsAt (hal : StepperDriver ℚ δ) (sqrt : ℚ → ℚ) (motor : ι) (place : ℤ) (s : Locked ι ℚ δ)
    (dt : ℚ) (now : ℤ) : Prop :=
  0 < dt ∧
    match tickDriver hal motor now s with
    | (true, _) => s.channel.position = place
    | (false, supervised) =>
      match tickThermal hal motor supervised with
      | (true, _) => s.channel.position = place
      | (false, cool) => motionFaultsAt hal sqrt place cool.channel dt

/-- So can its replies to a tick. -/
instance (hal : StepperDriver ℚ δ) (sqrt : ℚ → ℚ) (motor : ι) (place : ℤ) (s : Locked ι ℚ δ) (dt : ℚ)
    (now : ℤ) : Decidable (tickFaultsAt hal sqrt motor place s dt now) := by
  unfold tickFaultsAt
  rcases tickDriver hal motor now s with ⟨_ | _, supervised⟩
  · dsimp only
    rcases tickThermal hal motor supervised with ⟨_ | _, cool⟩
    · exact inferInstanceAs (Decidable (_ ∧ motionFaultsAt hal sqrt place cool.channel dt))
    · exact inferInstanceAs (Decidable (_ ∧ s.channel.position = place))
  · exact inferInstanceAs (Decidable (_ ∧ s.channel.position = place))

/-- A check of the driver keeps the course, or ends the tick with the motor at rest where it is. -/
def Checks (s : Locked ι ℚ δ) : Bool × Locked ι ℚ δ → Prop
  | (true, after) => after.channel.mode = .idle ∧ after.channel.position = s.channel.position
  | (false, after) => SameCourse s.channel after.channel

/-- Supervising the driver is such a check. -/
theorem tickDriver_checks (hal : StepperDriver ℚ δ) (motor : ι) (now : ℤ) (s : Locked ι ℚ δ) :
    Checks s (tickDriver hal motor now s) := by
  unfold tickDriver
  split
  · exact SameCourse.refl _
  case h_2 d hdriver =>
    dsimp only
    split
    · split
      · refine SameCourse.trans ?_ (absorbDriverStepLoss_course hal _)
        split
        · split
          · exact ⟨⟨rfl, rfl, rfl, rfl, rfl, rfl⟩, rfl⟩
          · exact ⟨⟨rfl, rfl, rfl, rfl, rfl, rfl⟩, rfl⟩
        · exact ⟨⟨rfl, rfl, rfl, rfl, rfl, rfl⟩, rfl⟩
      · exact SameCourse.refl _
    split
    · have hcourse := absorbCalled_course hal s.channel (some (hal.poll (hal.noteStepRate d 0 false)).2)
      split
      · exact ⟨(releaseLockIfHeld_course motor _).mode,
          (releaseLockIfHeld_course motor _).position.trans hcourse.position⟩
      · exact hcourse
    · exact SameCourse.refl _

/-- So is a thermal stop. -/
theorem tickThermal_checks (hal : StepperDriver ℚ δ) (motor : ι) (s : Locked ι ℚ δ) :
    Checks s (tickThermal hal motor s) := by
  unfold tickThermal
  split
  · exact SameCourse.refl _
  split
  · exact ⟨(releaseLockIfHeld_course motor _).mode, (releaseLockIfHeld_course motor _).position⟩
  · exact SameCourse.refl _

/-- A tick is sound unless the driver ends a move or a hold at the target before its time. -/
theorem tick_sound {w : StepWatch} (hal : StepperDriver ℚ δ) (sqrt : ℚ → ℚ) (motor : ι)
    (s : Locked ι ℚ δ) (dt : ℚ) (now : ℤ) (hheld : 0 ≤ w.held) (hbound : w.Bound s.channel)
    (hflagged : Flagged s.channel)
    (hok : tickFaultsAt hal sqrt motor w.target s dt now → w.hold ≤ (w.tally dt s.channel).held) :
    (w.tally dt s.channel).Sound (tick hal sqrt motor s dt now).channel := by
  unfold tick
  split
  · exact Or.inr ⟨hbound.tally dt s.channel, hflagged⟩
  case isFalse hpositive =>
    have hdt : 0 < dt := not_le.mp hpositive
    have hdriver := tickDriver_checks hal motor now s
    unfold tickFaultsAt at hok
    generalize tickDriver hal motor now s = supervision at hdriver hok
    obtain ⟨ended, supervised⟩ := supervision
    cases ended with
    | true => exact sound_idle hdriver.1 fun hposition => hok ⟨hdt, hdriver.2.symm.trans hposition⟩
    | false =>
      have hthermal := tickThermal_checks hal motor supervised
      dsimp only at hok ⊢
      generalize tickThermal hal motor supervised = cooling at hthermal hok
      obtain ⟨ended, cool⟩ := cooling
      cases ended with
      | true =>
        have hposition := hthermal.2.trans hdriver.position
        exact sound_idle hthermal.1 fun h => hok ⟨hdt, hposition.symm.trans h⟩
      | false =>
        have hsame : SameCourse s.channel cool.channel := hdriver.trans hthermal
        rw [← tally_same hsame]
        refine tickMotion_sound hal sqrt motor cool hheld hdt (hbound.same hsame) fun hfault => ?_
        rw [tally_same hsame]
        exact hok ⟨hdt, hfault⟩

/-- The driver ends a move at a pulse with the motor at a place. -/
def pulseFaultsAt (hal : StepperDriver ℚ δ) (sqrt : ℚ → ℚ) (place : ℤ) (c : StepperChannel ℚ δ)
    (elapsed : ℚ) : Prop :=
  let ramped := updateRampSpeed sqrt c (clampElapsed elapsed) |c.target - c.position|
  (c.mode = .moving ∨ c.mode = .retracting) ∧ c.target - c.position ≠ 0 ∧
    1 ≤ ramped.currentStepHz * (ramped.microstep : ℚ) ∧
    issueFaultsAt hal place (reportStepRateToDriver hal ramped) 1

/-- So can its replies to a pulse. -/
instance (hal : StepperDriver ℚ δ) (sqrt : ℚ → ℚ) (place : ℤ) (c : StepperChannel ℚ δ) (elapsed : ℚ) :
    Decidable (pulseFaultsAt hal sqrt place c elapsed) :=
  inferInstanceAs (Decidable (_ ∧ _ ∧ _ ∧ _))

/-- A pulse is sound unless the driver ends the move at the target before its time. -/
theorem pulse_sound {w : StepWatch} (hal : StepperDriver ℚ δ) (sqrt : ℚ → ℚ) (motor : ι)
    (s : Locked ι ℚ δ) (elapsed : ℚ) (hbound : w.Bound s.channel) (hflagged : Flagged s.channel)
    (hok : pulseFaultsAt hal sqrt w.target s.channel elapsed → w.hold ≤ w.held) :
    w.Sound (pulse hal sqrt motor s elapsed).channel := by
  unfold pulse
  split
  · exact Or.inr ⟨hbound, hflagged⟩
  case isFalse hbusy =>
    have hmode : s.channel.mode = .moving ∨ s.channel.mode = .retracting := by
      by_contra hno
      exact hbusy (not_or.mp hno)
    split
    · exact Or.inr ⟨hbound, hflagged⟩
    case isFalse hplace =>
      dsimp only
      have hramp := updateRampSpeed_course sqrt s.channel (clampElapsed elapsed)
        |s.channel.target - s.channel.position|
      have hreport := hramp.trans (reportStepRateToDriver_course hal _)
      split
      · exact Or.inr ⟨hbound.same hramp, hflagged.sameLeg hramp.toSameLeg⟩
      case isFalse hrate =>
        have hissued := issuePulses_leg hal motor ⟨s.lock, reportStepRateToDriver hal
          (updateRampSpeed sqrt s.channel (clampElapsed elapsed) |s.channel.target - s.channel.position|)⟩ 1
          fun hfault => hok ⟨hmode, hplace, not_lt.mp hrate, hfault⟩
        rcases hissued with hleg | ⟨hidle, hrest⟩
        · have hleg := hreport.toSameLeg.trans hleg
          exact Or.inr ⟨hbound.sameLeg hleg hmode, hflagged.sameLeg hleg⟩
        · exact sound_idle hidle hrest

end Locked

end Coatheal.Motion
