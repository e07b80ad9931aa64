import Coatheal.Motion.Rig

/-!
# Pulls, told from the owner of the lock

Once a tick the control loop samples every motor and, later in the tick, compares
the owner of the motion lock with what it was the tick before: a motor that has
it now begins a pull, one that has it no more has ended one. Commands, ticks and
pulses take and give back the lock in between. The intervals in which a motor
held it are kept, for the statements only.
-/

set_option linter.unusedSectionVars false

namespace Coatheal.Motion

open Coatheal.Library

/-- What the detection reads of a sampled motor. -/
structure StepperStatus (K : Type*) where
  positionSteps : ℤ
  holdRemainingS : K
  lastSource : String
  microstep : ℤ
deriving DecidableEq

/-- What is remembered of a motor between two detections. -/
structure PullState where
  lockHeld : Bool
  startTs : String
  startPos : ℤ
deriving DecidableEq, Repr

/-- A pull as it is reported. -/
structure HeatingPullEvent (ι K : Type*) where
  pullId : UInt32
  motorId : ι
  startTs : String
  stepsMoved : ℤ
  holdS : K
  samples : List ℕ
  microstep : ℤ
deriving DecidableEq

/-- An interval in which a motor holds the lock: where it took it, and for how long it has held its target. -/
structure OpenInterval (K : Type*) where
  startPos : ℤ
  heldS : K
deriving DecidableEq

/-- An interval that is over: where the lock was given back, and whether a safety stop ended it. -/
structure PullInterval (K : Type*) where
  startPos : ℤ
  endPos : ℤ
  heldS : K
  aborted : Bool
deriving DecidableEq

/-- The source of the last change is a safety stop. -/
def isSafetySource (source : String) : Bool := "safety:".toList.isPrefixOf source.toList

/-- `EndedBySafetyAbort`. -/
def StepperStatus.endedBySafetyAbort {K : Type*} (status : StepperStatus K) : Bool := isSafetySource status.lastSource

variable {ι K δ : Type*} [DecidableEq ι] [Field K] [LinearOrder K] [FloorRing K]

/-- `Snapshot`, as far as the detection reads it. -/
def StepperChannel.snapshot (c : StepperChannel K δ) : StepperStatus K :=
  ⟨c.position, c.holdRemainingS, c.lastSource, c.microstep⟩

/-- The motors with the detection of pulls: the sample of each motor, what is remembered of it, the next number and
the pulls reported. For each motor there is kept how often it took or gave back the lock since its last detection,
the interval it is in, and those that are over. -/
structure PullWatch (ι K δ : Type*) where
  rig : Rig ι K δ
  sampled : ι → StepperStatus K
  pullState : ι → PullState
  nextPullId : UInt32
  events : List (HeatingPullEvent ι K)
  changes : ι → ℕ
  openInterval : ι → Option (OpenInterval K)
  finished : ι → List (PullInterval K)

/-- A step: something happens to a motor, or the control loop samples one or looks for its pull. -/
inductive PullInput (ι K δ : Type*) where
  | operate (motor : ι) (operation : Operation K δ)
  | sample (motor : ι)
  | detect (motor : ι) (timestampUtc : String)

/-- A motor owns the lock. -/
def Rig.owns (rig : Rig ι K δ) (motor : ι) : Bool := decide (rig.lock.holder = some motor)

/-- The time a step adds to the hold of a motor: that of a tick that finds it holding. -/
def heldBy (c : StepperChannel K δ) : Operation K δ → K
  | .tick dt _ => if c.mode = .holding ∧ 0 < dt then dt else 0
  | _ => 0

/-- The interval that ends with the channel as it stands. -/
def OpenInterval.close (interval : OpenInterval K) (c : StepperChannel K δ) : PullInterval K :=
  ⟨interval.startPos, c.position, interval.heldS, isSafetySource c.lastSource⟩

namespace PullWatch

/-- Before anything has happened. -/
def start (platform : Platform K δ) (cfg : ι → ChannelConfig K) (driver : ι → Option δ) : PullWatch ι K δ where
  rig := .start platform cfg driver
  sampled motor := ((Rig.start platform cfg driver).channels motor).snapshot
  pullState _ := ⟨false, "", 0⟩
  nextPullId := 1
  events := []
  changes _ := 0
  openInterval _ := none
  finished _ := []

/-- The interval that a motor is in, with the time a step adds to its hold. -/
def intervalThrough (w : PullWatch ι K δ) (moved : ι) (operation : Operation K δ) (motor : ι) :
    Option (OpenInterval K) :=
  (w.openInterval motor).map fun interval =>
    if motor = moved then { interval with heldS := interval.heldS + heldBy (w.rig.channels motor) operation }
    else interval

/-- Something happens to a motor, and the intervals go by who owns the lock then. -/
def operate (platform : Platform K δ) (w : PullWatch ι K δ) (moved : ι) (operation : Operation K δ) :
    PullWatch ι K δ :=
  let after := w.rig.step platform (moved, operation)
  { w with
    rig := after
    changes := fun motor => if w.rig.owns motor = after.owns motor then w.changes motor else w.changes motor + 1
    openInterval := fun motor =>
      if w.rig.owns motor = after.owns motor then w.intervalThrough moved operation motor
      else if after.owns motor then some ⟨(after.channels motor).position, 0⟩ else none
    finished := fun motor =>
      if w.rig.owns motor = after.owns motor ∨ after.owns motor then w.finished motor
      else w.finished motor ++
        (w.intervalThrough moved operation motor).toList.map (·.close (after.channels motor)) }

/-- The control loop samples a motor. -/
def sample (w : PullWatch ι K δ) (motor : ι) : PullWatch ι K δ :=
  { w with sampled := Function.update w.sampled motor (w.rig.channels motor).snapshot }

/-- The pull of a motor that has given the lock back. -/
def pullEvent (samplesForMotor : ι → List ℕ) (w : PullWatch ι K δ) (motor : ι) : HeatingPullEvent ι K where
  pullId := w.nextPullId
  motorId := motor
  startTs := (w.pullState motor).startTs
  stepsMoved := (w.sampled motor).positionSteps - (w.pullState motor).startPos
  holdS := (w.sampled motor).holdRemainingS
  samples := samplesForMotor motor
  microstep := (w.sampled motor).microstep

/-- Whether a motor holds the lock is remembered until its next detection. -/
def remember (w : PullWatch ι K δ) (motor : ι) (state : PullState) : PullWatch ι K δ :=
  { w with pullState := Function.update w.pullState motor state }

/-- The detection of the pulls of a motor. -/
def detect (samplesForMotor : ι → List ℕ) (w : PullWatch ι K δ) (motor : ι) (timestampUtc : String) :
    PullWatch ι K δ :=
  let ps := w.pullState motor
  let seen := { w with changes := Function.update w.changes motor 0 }
  if ps.lockHeld = false ∧ w.rig.owns motor then
    seen.remember motor ⟨true, timestampUtc, (w.sampled motor).positionSteps⟩
  else if ps.lockHeld ∧ w.rig.owns motor = false then
    if (w.sampled motor).endedBySafetyAbort then seen.remember motor { ps with lockHeld := false }
    else
      { seen.remember motor { ps with lockHeld := false } with
        nextPullId := w.nextPullId + 1
        events := w.events ++ [w.pullEvent samplesForMotor motor] }
  else seen

/-- One step. -/
def step (platform : Platform K δ) (samplesForMotor : ι → List ℕ) (w : PullWatch ι K δ) :
    PullInput ι K δ → PullWatch ι K δ
  | .operate moved operation => w.operate platform moved operation
  | .sample motor => w.sample motor
  | .detect motor timestampUtc => w.detect samplesForMotor motor timestampUtc

/-- What the pulls reported of a motor say of its movement and its hold. -/
def reported (w : PullWatch ι K δ) (motor : ι) : List (ℤ × K) :=
  (w.events.filter fun event => event.motorId = motor).map fun event => (event.stepsMoved, event.holdS)

/-- What should be said of intervals: those that no safety stop ended, with the way from where the lock was taken to
where it was given back, and the time held. -/
def due (intervals : List (PullInterval K)) : List (ℤ × K) :=
  (intervals.filter fun interval => interval.aborted = false).map fun interval =>
    (interval.endPos - interval.startPos, interval.heldS)

/-- Exactly one pull is reported of a motor for each interval that no safety stop ended, and says what it should. -/
def OnePerMotion (w : PullWatch ι K δ) (motor : ι) : Prop := w.reported motor = due (w.finished motor)

/-- The detection of a motor can tell what happened: the lock changed hands at most once since the one before; where
an interval began, the motor was sampled where it took the lock; and where one ended, it was sampled with the source
that ended it, where it gave the lock back, and there was no hold. -/
def Tells (w : PullWatch ι K δ) (motor : ι) : Prop :=
  w.changes motor ≤ 1 ∧
    ((w.pullState motor).lockHeld = false →
      ∀ interval ∈ w.openInterval motor, (w.sampled motor).positionSteps = interval.startPos) ∧
    ((w.pullState motor).lockHeld = true → w.rig.owns motor = false →
      ∀ interval ∈ (w.finished motor).getLast?, (w.sampled motor).endedBySafetyAbort = interval.aborted ∧
        (interval.aborted = false → (w.sampled motor).positionSteps = interval.endPos ∧
          (w.sampled motor).holdRemainingS = 0 ∧ interval.heldS = 0))

/-- The condition on a step: a detection can tell what happened. -/
def Told (w : PullWatch ι K δ) : PullInput ι K δ → Prop
  | .detect motor _ => w.Tells motor
  | _ => True

/-- Whether a detection can tell what happened can be checked. -/
instance decidableTells (w : PullWatch ι K δ) (motor : ι) : Decidable (w.Tells motor) :=
  inferInstanceAs (Decidable (_ ∧ _ ∧ _))

/-- The condition on a step can be checked. -/
instance decidableTold (w : PullWatch ι K δ) : (input : PullInput ι K δ) → Decidable (w.Told input)
  | .operate _ _ => inferInstanceAs (Decidable True)
  | .sample _ => inferInstanceAs (Decidable True)
  | .detect motor _ => inferInstanceAs (Decidable (w.Tells motor))

/-- What is known of a motor while the lock has changed hands at most once since its last detection. -/
structure Tracked (w : PullWatch ι K δ) (motor : ι) : Prop where
  isOpen : (w.openInterval motor).isSome = w.rig.owns motor
  still : w.changes motor = 0 → (w.pullState motor).lockHeld = w.rig.owns motor ∧ w.OnePerMotion motor ∧
    ∀ interval ∈ w.openInterval motor, interval.startPos = (w.pullState motor).startPos
  begun : w.changes motor = 1 → w.rig.owns motor = true →
    (w.pullState motor).lockHeld = false ∧ w.OnePerMotion motor
  ended : w.changes motor = 1 → w.rig.owns motor = false → (w.pullState motor).lockHeld = true ∧
    ∃ before interval, w.finished motor = before ++ [interval] ∧ w.reported motor = due before ∧
      interval.startPos = (w.pullState motor).startPos

/-- A motor is tracked before anything has happened. -/
theorem tracked_start (platform : Platform K δ) (cfg : ι → ChannelConfig K) (driver : ι → Option δ) (motor : ι) :
    (start platform cfg driver).Tracked motor where
  isOpen := rfl
  still _ := ⟨rfl, rfl, fun _ hinterval => by cases hinterval⟩
  begun hchanges := by cases hchanges
  ended hchanges := by cases hchanges

section

variable {w : PullWatch ι K δ} {platform : Platform K δ} {motor moved : ι} {operation : Operation K δ}

/-- A step does not move the start of an interval. -/
theorem startPos_intervalThrough {interval : OpenInterval K}
    (h : interval ∈ w.intervalThrough moved operation motor) :
    ∃ earlier ∈ w.openInterval motor, interval.startPos = earlier.startPos := by
  obtain ⟨earlier, hearlier, hinterval⟩ := Option.map_eq_some_iff.mp h
  refine ⟨earlier, hearlier, ?_⟩
  rw [← hinterval]
  split <;> rfl

/-- The pulls reported of a motor change with none but its detection. -/
theorem reported_operate : (w.operate platform moved operation).reported motor = w.reported motor := rfl

/-- The due of an interval more. -/
theorem due_append (intervals : List (PullInterval K)) (interval : PullInterval K) :
    due (intervals ++ [interval]) =
      due intervals ++ if interval.aborted then [] else [(interval.endPos - interval.startPos, interval.heldS)] := by
  cases h : interval.aborted <;> simp [due, h]

/-- A motor whose lock stays as it is remains tracked. -/
theorem Tracked.operate_same (h : w.Tracked motor)
    (hsame : w.rig.owns motor = (w.rig.step platform (moved, operation)).owns motor) :
    (w.operate platform moved operation).Tracked motor := by
  have hchanges : (w.operate platform moved operation).changes motor = w.changes motor := if_pos hsame
  have hopen : (w.operate platform moved operation).openInterval motor = w.intervalThrough moved operation motor :=
    if_pos hsame
  have hfinished : (w.operate platform moved operation).finished motor = w.finished motor := if_pos (Or.inl hsame)
  have howns : (w.operate platform moved operation).rig.owns motor = w.rig.owns motor := hsame.symm
  have hone : (w.operate platform moved operation).OnePerMotion motor ↔ w.OnePerMotion motor := by
    rw [OnePerMotion, OnePerMotion, hfinished, reported_operate]
  refine ⟨?_, fun hzero => ?_, fun hone' hheld => ?_, fun hone' hfree => ?_⟩
  · rw [hopen, howns, intervalThrough, Option.isSome_map, h.isOpen]
  · obtain ⟨hlock, hreported, hstart⟩ := h.still (hchanges ▸ hzero)
    refine ⟨hlock.trans howns.symm, hone.mpr hreported, fun interval hinterval => ?_⟩
    obtain ⟨earlier, hearlier, hpos⟩ := startPos_intervalThrough (hopen ▸ hinterval)
    exact hpos.trans (hstart earlier hearlier)
  · obtain ⟨hlock, hreported⟩ := h.begun (hchanges ▸ hone') (howns ▸ hheld)
    exact ⟨hlock, hone.mpr hreported⟩
  · obtain ⟨hlock, before, interval, hsplit, hreported, hstart⟩ := h.ended (hchanges ▸ hone') (howns ▸ hfree)
    exact ⟨hlock, before, interval, hfinished.trans hsplit, hreported, hstart⟩

/-- A motor that takes the lock begins an interval. -/
theorem Tracked.operate_taken (h : w.Tracked motor) (hbefore : w.rig.owns motor = false)
    (hafter : (w.rig.step platform (moved, operation)).owns motor = true) :
    (w.operate platform moved operation).Tracked motor := by
  have hother : w.rig.owns motor ≠ (w.rig.step platform (moved, operation)).owns motor := by simp [hbefore, hafter]
  have hchanges : (w.operate platform moved operation).changes motor = w.changes motor + 1 := if_neg hother
  have hfinished : (w.operate platform moved operation).finished motor = w.finished motor := if_pos (Or.inr hafter)
  have howns : (w.operate platform moved operation).rig.owns motor = true := hafter
  refine ⟨?_, fun hzero => ?_, fun hone _ => ?_, fun _ hfree => ?_⟩
  · have hopen : (w.operate platform moved operation).openInterval motor =
        some ⟨((w.rig.step platform (moved, operation)).channels motor).position, 0⟩ :=
      (if_neg hother).trans (if_pos hafter)
    rw [hopen, howns]
    rfl
  · rw [hchanges] at hzero
    cases hzero
  · obtain ⟨hlock, hreported, _⟩ := h.still (by omega)
    exact ⟨hlock.trans hbefore, by rwa [OnePerMotion, hfinished]⟩
  · rw [howns] at hfree
    cases hfree

/-- A motor that gives the lock back ends its interval. -/
theorem Tracked.operate_given (h : w.Tracked motor) (hbefore : w.rig.owns motor = true)
    (hafter : (w.rig.step platform (moved, operation)).owns motor = false) :
    (w.operate platform moved operation).Tracked motor := by
  have hother : w.rig.owns motor ≠ (w.rig.step platform (moved, operation)).owns motor := by simp [hbefore, hafter]
  have hchanges : (w.operate platform moved operation).changes motor = w.changes motor + 1 := if_neg hother
  have howns : (w.operate platform moved operation).rig.owns motor = false := hafter
  obtain ⟨earlier, hearlier⟩ := Option.isSome_iff_exists.mp (h.isOpen.trans hbefore)
  obtain ⟨interval, hinterval⟩ : ∃ interval, w.intervalThrough moved operation motor = some interval := by
    rw [intervalThrough, hearlier]
    exact ⟨_, rfl⟩
  have hfinished : (w.operate platform moved operation).finished motor =
      w.finished motor ++ [interval.close ((w.rig.step platform (moved, operation)).channels motor)] := by
    have hnot : ¬(w.rig.owns motor = (w.rig.step platform (moved, operation)).owns motor ∨
        (w.rig.step platform (moved, operation)).owns motor = true) := by simp [hbefore, hafter]
    exact (if_neg hnot).trans (by rw [hinterval]; rfl)
  refine ⟨?_, fun hzero => ?_, fun _ hheld => ?_, fun hone _ => ?_⟩
  · have hopen : (w.operate platform moved operation).openInterval motor = none :=
      (if_neg hother).trans (if_neg (by simp [hafter]))
    rw [hopen, howns]
    rfl
  · rw [hchanges] at hzero
    cases hzero
  · rw [howns] at hheld
    cases hheld
  · obtain ⟨hlock, hreported, hstart⟩ := h.still (by omega)
    obtain ⟨known, hknown, hpos⟩ := startPos_intervalThrough hinterval
    exact ⟨hlock.trans hbefore, _, _, hfinished, hreported, hpos.trans (hstart known hknown)⟩

/-- Whatever happens to whichever motor, every motor remains tracked. -/
theorem Tracked.operate (h : w.Tracked motor) : (w.operate platform moved operation).Tracked motor := by
  cases hbefore : w.rig.owns motor <;> cases hafter : (w.rig.step platform (moved, operation)).owns motor
  · exact h.operate_same (hbefore.trans hafter.symm)
  · exact h.operate_taken hbefore hafter
  · exact h.operate_given hbefore hafter
  · exact h.operate_same (hbefore.trans hafter.symm)

/-- A sample leaves every motor tracked. -/
theorem Tracked.sample (h : w.Tracked motor) (other : ι) : (w.sample other).Tracked motor :=
  ⟨h.isOpen, h.still, h.begun, h.ended⟩

variable (samplesForMotor : ι → List ℕ)

/-- A detection tells of the lock and the intervals, and changes none of them. -/
theorem detect_same (w : PullWatch ι K δ) (detected : ι) (timestampUtc : String) :
    (w.detect samplesForMotor detected timestampUtc).rig = w.rig ∧
      (w.detect samplesForMotor detected timestampUtc).openInterval = w.openInterval ∧
      (w.detect samplesForMotor detected timestampUtc).finished = w.finished ∧
      (w.detect samplesForMotor detected timestampUtc).changes = Function.update w.changes detected 0 := by
  unfold detect
  dsimp only
  split
  · exact ⟨rfl, rfl, rfl, rfl⟩
  · split
    · split <;> exact ⟨rfl, rfl, rfl, rfl⟩
    · exact ⟨rfl, rfl, rfl, rfl⟩

/-- The detection of a motor concerns no other. -/
theorem detect_other (w : PullWatch ι K δ) {detected : ι} (hother : motor ≠ detected) (timestampUtc : String) :
    (w.detect samplesForMotor detected timestampUtc).pullState motor = w.pullState motor ∧
      (w.detect samplesForMotor detected timestampUtc).reported motor = w.reported motor := by
  have hstate (seen : PullWatch ι K δ) (state : PullState) :
      (seen.remember detected state).pullState motor = seen.pullState motor := Function.update_of_ne hother _ _
  unfold detect
  dsimp only
  split
  · exact ⟨hstate _ _, rfl⟩
  · split
    · split
      · exact ⟨hstate _ _, rfl⟩
      · refine ⟨hstate _ _, ?_⟩
        simp [reported, pullEvent, hother.symm]
    · exact ⟨rfl, rfl⟩

/-- A motor remains tracked through the detection of another. -/
theorem Tracked.detect_other (h : w.Tracked motor) {detected : ι} (hother : motor ≠ detected)
    (timestampUtc : String) : (w.detect samplesForMotor detected timestampUtc).Tracked motor := by
  obtain ⟨hrig, hopen, hfinished, hchanges⟩ := detect_same samplesForMotor w detected timestampUtc
  obtain ⟨hstate, hreported⟩ := PullWatch.detect_other samplesForMotor w hother timestampUtc
  have hcount : (w.detect samplesForMotor detected timestampUtc).changes motor = w.changes motor := by
    rw [hchanges, Function.update_of_ne hother]
  have hone : (w.detect samplesForMotor detected timestampUtc).OnePerMotion motor ↔ w.OnePerMotion motor := by
    rw [OnePerMotion, OnePerMotion, hreported, hfinished]
  refine ⟨by rw [hopen, hrig, h.isOpen], fun hzero => ?_, fun honce hheld => ?_, fun honce hfree => ?_⟩
  · rw [hstate, hrig, hopen, hone]
    exact h.still (hcount ▸ hzero)
  · rw [hstate, hone]
    exact h.begun (hcount ▸ honce) (hrig ▸ hheld)
  · rw [hstate, hfinished, hreported]
    exact h.ended (hcount ▸ honce) (hrig ▸ hfree)

/-- A detection that finds the lock where it was leaves it at that. -/
theorem Tracked.detect_still (h : w.Tracked motor) (hzero : w.changes motor = 0) (timestampUtc : String) :
    w.detect samplesForMotor motor timestampUtc = { w with changes := Function.update w.changes motor 0 } := by
  obtain ⟨hlock, _, _⟩ := h.still hzero
  unfold detect
  dsimp only
  rw [if_neg (by rw [hlock]; simp), if_neg (by rw [hlock]; simp)]

/-- After a detection that can tell what happened, exactly one pull is reported of the motor for each interval. -/
theorem Tracked.detect_self (h : w.Tracked motor) (htells : w.Tells motor) (timestampUtc : String) :
    (w.detect samplesForMotor motor timestampUtc).pullState motor =
        ⟨w.rig.owns motor, ((w.detect samplesForMotor motor timestampUtc).pullState motor).startTs,
          ((w.detect samplesForMotor motor timestampUtc).pullState motor).startPos⟩ ∧
      (w.detect samplesForMotor motor timestampUtc).OnePerMotion motor ∧
      ∀ interval ∈ w.openInterval motor,
        interval.startPos = ((w.detect samplesForMotor motor timestampUtc).pullState motor).startPos := by
  obtain ⟨honce, hbegin, hend⟩ := htells
  rcases Nat.le_one_iff_eq_zero_or_eq_one.mp honce with hzero | hone
  · obtain ⟨hlock, hreported, hstart⟩ := h.still hzero
    rw [h.detect_still samplesForMotor hzero]
    exact ⟨by rw [← hlock], hreported, hstart⟩
  · cases howns : w.rig.owns motor with
    | true =>
      obtain ⟨hlock, hreported⟩ := h.begun hone howns
      have hdetect : w.detect samplesForMotor motor timestampUtc =
          { w with changes := Function.update w.changes motor 0 }.remember motor
            ⟨true, timestampUtc, (w.sampled motor).positionSteps⟩ := if_pos ⟨hlock, howns⟩
      have hstate : (w.detect samplesForMotor motor timestampUtc).pullState motor =
          ⟨true, timestampUtc, (w.sampled motor).positionSteps⟩ := by
        rw [hdetect]
        exact Function.update_self _ _ _
      rw [hstate]
      refine ⟨rfl, ?_, fun interval hinterval => (hbegin hlock interval hinterval).symm⟩
      rw [hdetect]
      exact hreported
    | false =>
      obtain ⟨hlock, before, interval, hsplit, hreported, hstart⟩ := h.ended hone howns
      obtain ⟨habort, hsampled⟩ := hend hlock howns interval (by rw [hsplit]; simp)
      have hnone : w.openInterval motor = none := by
        rw [← Option.not_isSome_iff_eq_none, h.isOpen, howns]
        exact Bool.false_ne_true
      have hnot : ¬((w.pullState motor).lockHeld = false ∧ w.rig.owns motor = true) := by simp [hlock]
      rw [hnone]
      cases hinterval : interval.aborted with
      | true =>
        have hdetect : w.detect samplesForMotor motor timestampUtc =
            { w with changes := Function.update w.changes motor 0 }.remember motor
              { w.pullState motor with lockHeld := false } :=
          (if_neg hnot).trans ((if_pos ⟨hlock, howns⟩).trans (if_pos (habort.trans hinterval)))
        rw [hdetect]
        refine ⟨by simp [remember], ?_, fun _ hmem => by cases hmem⟩
        have hdue : due (w.finished motor) = due before := by rw [hsplit, due_append, hinterval]; simp
        exact hreported.trans hdue.symm
      | false =>
        have hdetect : w.detect samplesForMotor motor timestampUtc =
            { { w with changes := Function.update w.changes motor 0 }.remember motor
                { w.pullState motor with lockHeld := false } with
              nextPullId := w.nextPullId + 1
              events := w.events ++ [w.pullEvent samplesForMotor motor] } :=
          (if_neg hnot).trans ((if_pos ⟨hlock, howns⟩).trans (if_neg (by rw [habort, hinterval]; simp)))
        rw [hdetect]
        refine ⟨by simp [remember], ?_, fun _ hmem => by cases hmem⟩
        obtain ⟨hposition, hremaining, hheld⟩ := hsampled hinterval
        have hdue : due (w.finished motor) = due before ++ [(interval.endPos - interval.startPos, 0)] := by
          rw [hsplit, due_append, hinterval, hheld]
          simp
        have hmore : (w.events ++ [w.pullEvent samplesForMotor motor]).filter (fun event => event.motorId = motor) =
            (w.events.filter fun event => event.motorId = motor) ++ [w.pullEvent samplesForMotor motor] := by
          rw [List.filter_append, List.filter_singleton]
          simp [pullEvent]
        change ((w.events ++ [w.pullEvent samplesForMotor motor]).filter fun event => event.motorId = motor).map
          (fun event => (event.stepsMoved, event.holdS)) = due (w.finished motor)
        rw [hmore, List.map_append, hdue, ← hreported]
        simp [reported, pullEvent, hposition, hremaining, hstart]

/-- A motor remains tracked through its own detection, if that can tell what happened. -/
theorem Tracked.detect_tells (h : w.Tracked motor) (htells : w.Tells motor) (timestampUtc : String) :
    (w.detect samplesForMotor motor timestampUtc).Tracked motor := by
  obtain ⟨hrig, hopen, _, hchanges⟩ := detect_same samplesForMotor w motor timestampUtc
  obtain ⟨hstate, hone, hstart⟩ := h.detect_self samplesForMotor htells timestampUtc
  have hzero : (w.detect samplesForMotor motor timestampUtc).changes motor = 0 := by
    rw [hchanges, Function.update_self]
  refine ⟨by rw [hopen, hrig, h.isOpen], fun _ => ⟨?_, hone, ?_⟩, fun hother => ?_, fun hother => ?_⟩
  · rw [hstate, hrig]
  · rw [hopen]
    exact hstart
  · rw [hzero] at hother
    cases hother
  · rw [hzero] at hother
    cases hother

/-- Every motor remains tracked through every step that meets the condition. -/
theorem tracked_step (input : PullInput ι K δ) (h : ∀ motor, w.Tracked motor) (htold : w.Told input) :
    ∀ motor, (w.step platform samplesForMotor input).Tracked motor := by
  intro motor
  cases input with
  | operate moved operation => exact (h motor).operate
  | sample other => exact (h motor).sample other
  | detect detected timestampUtc =>
    by_cases hmotor : motor = detected
    · subst hmotor
      exact (h motor).detect_tells samplesForMotor htold timestampUtc
    · exact (h motor).detect_other samplesForMotor hmotor timestampUtc

end

/-- After every detection of a motor, in a run whose detections can all tell what happened, exactly one pull is
reported of the motor for each interval that no safety stop ended, with the way from where the lock was taken to where
it was given back, and the time held. -/
theorem onePerMotion_of_told (platform : Platform K δ) (samplesForMotor : ι → List ℕ) (cfg : ι → ChannelConfig K)
    (driver : ι → Option δ) (inputs : List (PullInput ι K δ)) (motor : ι) (timestampUtc : String)
    (h : Meets (step platform samplesForMotor) Told (start platform cfg driver)
      (inputs ++ [.detect motor timestampUtc])) :
    (run (step platform samplesForMotor) (start platform cfg driver)
      (inputs ++ [.detect motor timestampUtc])).OnePerMotion motor := by
  obtain ⟨hbefore, htold, _⟩ := meets_append.mp h
  have htracked := run_invariant
    (fun (w : PullWatch ι K δ) input (hinv : ∀ motor, w.Tracked motor) hok =>
      tracked_step samplesForMotor input hinv hok)
    (tracked_start platform cfg driver) hbefore
  rw [run_append]
  exact ((htracked motor).detect_self samplesForMotor htold timestampUtc).2.1

end PullWatch

namespace PullWatch

/-- The bench, watched for pulls. -/
def bench : PullWatch (Fin 2) ℚ SimulatedStepperDriver :=
  start SimulatedStepperDriver.platform Rig.benchConfig Rig.benchDriver

/-- The specimens of the motors of the bench. -/
def benchSamples (motor : Fin 2) : List ℕ := if motor = Rig.benchMotor then [0, 1, 2, 3] else [4, 5, 6, 7]

/-- A move of ten microsteps, commanded after the motor was sampled, found at the end of that tick, and carried out in
the next one. -/
def foundMove : List (PullInput (Fin 2) ℚ SimulatedStepperDriver) :=
  [.operate Rig.benchMotor (.setEnabled true), .sample Rig.benchMotor, .operate Rig.benchMotor (.moveSteps 10),
    .detect Rig.benchMotor "t1", .operate Rig.benchMotor (.tick (1 / 2) 1), .sample Rig.benchMotor]

/-- The pull of a move that the detections can tell. -/
theorem onePerMotion_of_told_foundMove :
    (run (step SimulatedStepperDriver.platform benchSamples) bench
        (foundMove ++ [.detect Rig.benchMotor "t2"])).OnePerMotion Rig.benchMotor ∧
      (run (step SimulatedStepperDriver.platform benchSamples) bench
        (foundMove ++ [.detect Rig.benchMotor "t2"])).reported Rig.benchMotor = [(10, 0)] :=
  ⟨onePerMotion_of_told SimulatedStepperDriver.platform benchSamples Rig.benchConfig Rig.benchDriver foundMove
    Rig.benchMotor "t2" (by decide +kernel), by decide +kernel⟩

/-- A move of ten microsteps, commanded between two ticks and carried out in the next one before the motor is
sampled. -/
def shortMove : List (PullInput (Fin 2) ℚ SimulatedStepperDriver) :=
  [.operate Rig.benchMotor (.setEnabled true), .operate Rig.benchMotor (.moveSteps 10),
    .operate Rig.benchMotor (.tick (1 / 2) 1), .sample Rig.benchMotor, .detect Rig.benchMotor "t1"]

/-- The short move is over before the detection looks for it: no pull is reported. -/
theorem not_onePerMotion_shortMove :
    ¬∀ (inputs : List (PullInput (Fin 2) ℚ SimulatedStepperDriver)) (timestampUtc : String),
      (run (step SimulatedStepperDriver.platform benchSamples) bench
        (inputs ++ [.detect Rig.benchMotor timestampUtc])).OnePerMotion Rig.benchMotor := by
  intro hall
  have hone := hall shortMove "t2"
  revert hone
  unfold OnePerMotion
  decide +kernel

end PullWatch

end Coatheal.Motion
