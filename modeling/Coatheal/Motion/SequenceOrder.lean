import Coatheal.Motion.Deck
import Coatheal.Motion.Watch

/-!
# The order and the holds of a bend sequence

An onlooker follows the sequence of every motor: which step is current, how far
the motor has come with it, and whether every step was commanded in its turn. A
sequence infers from an idle motor at the target that its step is over; it is in
order in every run in which nothing spoils a step that it still pursues.
-/

namespace Coatheal.Motion

open Coatheal.Library Coatheal.Fallback

variable {n : ℕ} {δ : Type*}

/-- A sequence that waits for its motor to finish a step. -/
def BendSequenceRuntime.Pursues (runtime : BendSequenceRuntime) : Prop :=
  runtime.running = true ∧ runtime.paused = false ∧ runtime.stepQueued = true

/-- Whether a sequence waits is on record. -/
instance (runtime : BendSequenceRuntime) : Decidable runtime.Pursues :=
  inferInstanceAs (Decidable (_ ∧ _ ∧ _))

/-- How far the sequence of one motor has come: the current step, its progress once it is commanded, and
whether all steps so far were commanded in their turn. -/
structure Course where
  current : ℕ
  progress : Option StepWatch
  inOrder : Bool

namespace Course

/-- A step may be commanded: it is the current one and was not commanded yet, or the current one is
finished and it is the next. -/
def inTurn (c : Course) (index : ℕ) : Bool :=
  match c.progress with
  | none => index = c.current
  | some w => w.finished && index = c.current + 1

/-- A tick commands a step, which the motor starts or refuses. -/
def commanded (c : Course) (index : ℕ) (started : Option StepWatch) : Course :=
  { current := index, progress := started, inOrder := c.inOrder && c.inTurn index }

end Course

/-- A step that was just commanded. -/
def StepWatch.fresh (step : BendSequenceStep) (c : StepperChannel ℚ δ) : StepWatch where
  target := step.targetUsteps.toInt
  hold := step.holdS
  held := 0
  finished := decide (c.position = step.targetUsteps.toInt ∧ step.holdS ≤ 0)

namespace Deck

/-- The operations that start a bend of the plan. -/
def bendOperations (action : FallbackAction n) : List (Fin n × Operation ℚ δ) :=
  (if 0 < action.speedHz then [(action.motorId, .setSpeed action.speedHz)] else []) ++
    [(action.motorId, .moveToSteps action.targetUsteps.toInt action.holdS)]

/-- The operations an event has carried out, apart from the steps of sequences. -/
def eventOperations (platform : Platform ℚ δ) (d : Deck n δ) :
    DeckEvent n δ → List (Fin n × Operation ℚ δ)
  | .command command => if (d.check platform command).isOk then operations command else []
  | .startTick linkLost =>
    if (decide (d.mode = .run) && linkLost) = true ∧ d.linkLossFallbackWasActive = false then
      ((List.finRange n).filter fun motor => !(d.sequences motor).running).map fun motor => (motor, .stop)
    else []
  | .planTick phase now groupTempC =>
    ((d.planAction platform.hal phase now groupTempC).2.elim [] bendOperations) ++
      if d.linkLossFallbackActive ∧ phase = .landed ∧ d.cfg.landedSafe ∧ d.landedSafed = false then
        (List.finRange n).flatMap fun motor => [(motor, .stop), (motor, .setEnabled false)]
      else []
  | .sequenceTick _ => []
  | .channelTick motor dt now => [(motor, .tick dt now)]
  | .faultTick motor overtemp =>
    if (d.allHealthy platform.hal = false ∨ overtemp) ∧ (d.sequences motor).running ∧
        (d.sequences motor).paused = false then [(motor, .stop)]
    else []
  | .pulse motor elapsed => [(motor, .pulse elapsed)]
  | .driverChange motor after => [(motor, .driverChange after)]

/-- Starting a bend of the plan is its operations. -/
theorem startBend_rig (platform : Platform ℚ δ) (d : Deck n δ) (action : FallbackAction n) :
    (d.startBend action).rig = run (Rig.step platform) d.rig (bendOperations action) := by
  unfold startBend bendOperations sendTo
  by_cases hspeed : 0 < action.speedHz
  · simp only [if_pos hspeed]
    simp [StepperChannel.setSpeed, not_le.mpr hspeed, setChannel, Rig.step, Rig.locked, Operation.apply]
  · simp only [if_neg hspeed]
    rfl

/-- What a command records leaves the rig alone. -/
theorem record_rig (platform : Platform ℚ δ) (d : Deck n δ) (command : MotionCommand n) :
    (d.record platform command).rig = d.rig := by
  cases command with
  | bendSeqClear motor name =>
    cases name with
    | none => rfl
    | some name => rfl
  | fallbackPlan motor target hold speed =>
    unfold record
    dsimp only
    split
    · rfl
    · rfl
  | fallbackArm =>
    unfold record
    dsimp only
    split
    · rfl
    · rfl
  | _ => rfl

/-- A command that passes its checks is recorded and carried out. -/
theorem step_command_ok {platform : Platform ℚ δ} {d : Deck n δ} {command : MotionCommand n}
    (h : (d.check platform command).isOk = true) :
    d.step platform (.command command) =
      (d.record platform command).operate platform (operations command) := by
  unfold step obey
  cases hcheck : d.check platform command with
  | error text =>
    rw [hcheck] at h
    cases h
  | ok done => simp only [hcheck, Except.map]

/-- A command that does not pass its checks changes nothing. -/
theorem step_command_error {platform : Platform ℚ δ} {d : Deck n δ} {command : MotionCommand n}
    (h : ¬ (d.check platform command).isOk = true) : d.step platform (.command command) = d := by
  unfold step obey
  cases hcheck : d.check platform command with
  | error text => simp only [hcheck, Except.map]
  | ok done =>
    rw [hcheck] at h
    exact absurd rfl h

/-- The part of a tick for the plan starts a bend, if there is one, and ends with the landed safing. -/
theorem tickFallbackPlan_rig (platform : Platform ℚ δ) (d : Deck n δ) (phase : MissionPhase) (now : ℤ)
    (groupTempC : Fin n → Option ℚ) : (d.tickFallbackPlan platform phase now groupTempC).rig =
      run (Rig.step platform) d.rig (d.eventOperations platform (.planTick phase now groupTempC)) := by
  unfold tickFallbackPlan eventOperations
  dsimp only
  rw [run_append]
  cases (d.planAction platform.hal phase now groupTempC).2 with
  | none =>
    dsimp only [Option.elim]
    split
    · rfl
    · rfl
  | some action =>
    have hstarted := startBend_rig platform
      { d with planner := (d.planAction platform.hal phase now groupTempC).1 } action
    dsimp only [Option.elim] at hstarted ⊢
    rw [← hstarted]
    split
    · rfl
    · rfl

/-- An event other than a step of a sequence does its operations to the rig and nothing else. -/
theorem step_rig (platform : Platform ℚ δ) (d : Deck n δ) (event : DeckEvent n δ)
    (h : ∀ motor, event ≠ .sequenceTick motor) :
    (d.step platform event).rig = run (Rig.step platform) d.rig (d.eventOperations platform event) := by
  cases event with
  | command command =>
    unfold eventOperations
    by_cases hcheck : (d.check platform command).isOk = true
    · rw [step_command_ok hcheck]
      simp only [hcheck, if_true, operate, record_rig]
    · rw [step_command_error hcheck]
      simp only [if_neg hcheck, run_nil]
  | startTick linkLost =>
    dsimp only [step, startTick, eventOperations]
    split
    · rfl
    · rfl
  | planTick phase now groupTempC => exact tickFallbackPlan_rig platform d phase now groupTempC
  | sequenceTick motor => exact absurd rfl (h motor)
  | channelTick motor dt now => rfl
  | faultTick motor overtemp =>
    dsimp only [step, pauseOnFault, eventOperations]
    split
    · rfl
    · rfl
  | pulse motor elapsed => rfl
  | driverChange motor after => rfl

end Deck

/-- One sequence before and after an event that commands no step of it: it no longer runs, it is paused
where it was, or it goes on as it was. -/
inductive Continues (r r' : BendSequenceRuntime) : Prop where
  | ended (h : r'.running = false)
  | paused (hpaused : r'.paused = true) (hrunning : r.running = true) (hindex : r'.stepIndex = r.stepIndex)
  | same (hrunning : r'.running = r.running) (hpaused : r'.paused = r.paused)
      (hqueued : r'.stepQueued = r.stepQueued) (hindex : r'.stepIndex = r.stepIndex)
      (hsteps : r.running = true → r'.steps = r.steps)

/-- A sequence that nothing happens to goes on as it was. -/
theorem Continues.refl (r : BendSequenceRuntime) : Continues r r :=
  .same rfl rfl rfl rfl fun _ => rfl

/-- What happens to one sequence holds of all of them when the others are left alone. -/
theorem continues_update {sequences : Fin n → BendSequenceRuntime} {motor : Fin n}
    {runtime : BendSequenceRuntime} (h : Continues (sequences motor) runtime) (other : Fin n) :
    Continues (sequences other) (Function.update sequences motor runtime other) := by
  by_cases hother : other = motor
  · subst hother
    rwa [Function.update_self]
  · rw [Function.update_of_ne hother]
    exact .refl _

/-- A new definition under another name than the active one is nothing to a sequence. -/
theorem continues_define {r : BendSequenceRuntime} {name : String} {steps : Option (List BendSequenceStep)}
    (h : ¬ (r.running = true ∧ r.activeName = name)) :
    Continues r { r with definitions := Function.update r.definitions name steps } := by
  refine .same rfl rfl rfl rfl fun hrunning => ?_
  have hname : r.activeName ≠ name := fun hname => h ⟨hrunning, hname⟩
  unfold BendSequenceRuntime.steps
  dsimp only
  rw [Function.update_of_ne hname]

namespace Deck

/-- A command that neither runs nor resumes a sequence lets every sequence go on, pauses it or ends
it. -/
theorem record_continues {platform : Platform ℚ δ} {d : Deck n δ} {command : MotionCommand n}
    (hcheck : (d.check platform command).isOk = true) (hrun : ∀ motor name, command ≠ .bendSeqRun motor name)
    (hresume : ∀ motor, command ≠ .bendSeqResume motor) (motor : Fin n) :
    Continues (d.sequences motor) ((d.record platform command).sequences motor) := by
  cases command with
  | enterSafe => exact .ended rfl
  | forceStop => exact .ended rfl
  | shutdownSafe => exact .ended rfl
  | bendSeqLoad target name specs =>
    refine continues_update (continues_define fun hactive => ?_) motor
    simp only [check, hactive, and_self, if_true] at hcheck
    split at hcheck
    · cases hcheck
    · cases hsteps : checkSteps platform.shown d.cfg specs with
      | error text =>
        rw [hsteps] at hcheck
        cases hcheck
      | ok steps =>
        rw [hsteps] at hcheck
        cases hcheck
  | bendSeqRun target name => exact absurd rfl (hrun target name)
  | bendSeqPause target =>
    have hrunning : (d.sequences target).running = true := by
      by_contra hidle
      rw [check, if_neg hidle] at hcheck
      cases hcheck
    have hpaused : Continues (d.sequences target)
        { (d.sequences target).pausedFor "operator pause" with stepQueued := false } :=
      .paused rfl hrunning rfl
    exact continues_update hpaused motor
  | bendSeqResume target => exact absurd rfl (hresume target)
  | bendSeqStop target => exact continues_update (.ended rfl) motor
  | bendSeqClear target name =>
    cases name with
    | none =>
      have hidle : ¬ (d.sequences target).running = true := by
        intro hrunning
        rw [check, if_pos hrunning] at hcheck
        cases hcheck
      have hcleared : Continues (d.sequences target)
          { d.sequences target with definitions := fun _ => none } :=
        .same rfl rfl rfl rfl fun hrunning => absurd hrunning hidle
      exact continues_update hcleared motor
    | some name =>
      refine continues_update (continues_define fun hactive => ?_) motor
      rw [check, if_pos hactive] at hcheck
      cases hcheck
  | fallbackPlan target place hold speed =>
    unfold record
    dsimp only
    split
    · exact .refl _
    · exact .refl _
  | fallbackArm =>
    unfold record
    dsimp only
    split
    · exact .refl _
    · exact .refl _
  | _ => exact .refl _

/-- The part of a tick for the plan leaves the sequences alone. -/
theorem tickFallbackPlan_sequences (platform : Platform ℚ δ) (d : Deck n δ) (phase : MissionPhase)
    (now : ℤ) (groupTempC : Fin n → Option ℚ) :
    (d.tickFallbackPlan platform phase now groupTempC).sequences = d.sequences := by
  unfold tickFallbackPlan
  dsimp only
  cases (d.planAction platform.hal phase now groupTempC).2 with
  | none =>
    dsimp only
    split
    · rfl
    · rfl
  | some action =>
    dsimp only
    split
    · rfl
    · rfl

/-- The command runs or resumes a sequence. -/
def startsSequence : MotionCommand n → Prop
  | .bendSeqRun _ _ | .bendSeqResume _ => True
  | _ => False

/-- An event that neither runs nor resumes a sequence, and is no tick of one, lets every sequence go on,
pauses it or ends it. -/
theorem step_continues (platform : Platform ℚ δ) (d : Deck n δ) {event : DeckEvent n δ}
    (htick : ∀ motor, event ≠ .sequenceTick motor)
    (hcommand : ∀ command, event = .command command → ¬ startsSequence command) (motor : Fin n) :
    Continues (d.sequences motor) ((d.step platform event).sequences motor) := by
  cases event with
  | command command =>
    by_cases hcheck : (d.check platform command).isOk = true
    · rw [step_command_ok hcheck]
      refine record_continues hcheck (fun target name h => ?_) (fun target h => ?_) motor
      · exact hcommand command rfl (h ▸ trivial)
      · exact hcommand command rfl (h ▸ trivial)
    · rw [step_command_error hcheck]
      exact .refl _
  | startTick linkLost =>
    dsimp only [step, startTick]
    split
    · exact .refl _
    · exact .refl _
  | planTick phase now groupTempC =>
    dsimp only [step]
    rw [tickFallbackPlan_sequences]
    exact .refl _
  | sequenceTick target => exact absurd rfl (htick target)
  | faultTick target overtemp =>
    dsimp only [step, pauseOnFault]
    split
    case isTrue hfault =>
      have hpaused (text : String) : Continues (d.sequences target)
          { (d.sequences target).pausedFor text with stepQueued := false } :=
        .paused rfl hfault.2.1 rfl
      exact continues_update (hpaused _) motor
    · exact .refl _
  | channelTick target dt now => exact .refl _
  | pulse target elapsed => exact .refl _
  | driverChange target after => exact .refl _

end Deck

/-- The deck and the courses of its sequences. -/
structure Followed (n : ℕ) (δ : Type*) where
  deck : Deck n δ
  courses : Fin n → Course

namespace Followed

/-- The rig and the steps in progress. -/
def watched (o : Followed n δ) : Watched (Fin n) δ := ⟨fun motor => (o.courses motor).progress, o.deck.rig⟩

/-- The course of one motor after an event. An operator who runs or resumes a sequence gives up the step
in progress. -/
def noted (platform : Platform ℚ δ) (o : Followed n δ) (motor : Fin n) : DeckEvent n δ → Course
  | .command (.bendSeqRun target name) =>
    if target = motor ∧ (o.deck.check platform (.bendSeqRun target name)).isOk then
      { o.courses motor with current := 0, progress := none }
    else o.courses motor
  | .command (.bendSeqResume target) =>
    if target = motor ∧ (o.deck.check platform (.bendSeqResume target)).isOk then
      { o.courses motor with progress := none }
    else o.courses motor
  | .sequenceTick target =>
    if target = motor then
      match (o.deck.sequences motor).nextMove (o.deck.busy motor) (o.deck.rig.channels motor) with
      | .rest _ => o.courses motor
      | .send runtime step =>
        let after := o.deck.tickBendSequence motor
        (o.courses motor).commanded runtime.stepIndex
          (if (after.sequences motor).stepQueued then some (.fresh step (after.rig.channels motor)) else none)
    else o.courses motor
  | event =>
    { o.courses motor with progress :=
        (run (Watched.step platform) o.watched (o.deck.eventOperations platform event)).watches motor }

/-- One event, seen by the onlooker. -/
def step (platform : Platform ℚ δ) (o : Followed n δ) (event : DeckEvent n δ) : Followed n δ where
  deck := o.deck.step platform event
  courses motor := o.noted platform motor event

/-- No sequence has come anywhere when the deck starts. -/
def start (d : Deck n δ) : Followed n δ := ⟨d, fun _ => ⟨0, none, true⟩⟩

/-- Every step of every sequence was commanded in its turn. -/
def InOrder (o : Followed n δ) : Prop := ∀ motor, (o.courses motor).inOrder = true

/-- No operation of the event spoils an unfinished step of a sequence that pursues it before and after
the event. -/
def Undisturbed (platform : Platform ℚ δ) (o : Followed n δ) (event : DeckEvent n δ) : Prop :=
  Meets (Watched.step platform)
    (Watched.Unspoiled platform fun motor =>
      (o.deck.sequences motor).Pursues ∧ ((o.deck.step platform event).sequences motor).Pursues)
    o.watched (o.deck.eventOperations platform event)

/-- Whether an event disturbs a step can be decided. -/
instance (platform : Platform ℚ δ) (o : Followed n δ) (event : DeckEvent n δ) :
    Decidable (o.Undisturbed platform event) :=
  inferInstanceAs (Decidable (Meets _ _ _ _))

/-- One motor's sequence is where its course says, and the step it pursues is tracked. -/
structure OnCourse (r : BendSequenceRuntime) (c : StepperChannel ℚ δ) (course : Course) : Prop where
  inOrder : course.inOrder = true
  current : r.running = true → course.current = r.stepIndex
  unqueued : r.running = true → r.paused = false → r.stepQueued = false → course.progress = none
  queued : r.Pursues → ∃ step w, r.steps[r.stepIndex]? = some step ∧ course.progress = some w ∧
    w.target = step.targetUsteps.toInt ∧ w.Tracked c

/-- All motors are on course. -/
def Inv (o : Followed n δ) : Prop :=
  ∀ motor, OnCourse (o.deck.sequences motor) (o.deck.rig.channels motor) (o.courses motor)

/-- The onlooker's watch keeps its target. -/
theorem watches_target (platform : Platform ℚ δ) (s : Watched (Fin n) δ)
    (inputs : List (Fin n × Operation ℚ δ)) (motor : Fin n) :
    ((run (Watched.step platform) s inputs).watches motor).map (·.target) =
      (s.watches motor).map (·.target) := by
  refine Watched.run_kept platform (fun w operation c after => ?_) s inputs motor
  unfold StepWatch.seenBy
  split
  · rfl
  · rfl

/-- A sequence that goes on, pauses or ends stays on course with the watch of its step. -/
theorem OnCourse.continues {r r' : BendSequenceRuntime} {c c' : StepperChannel ℚ δ} {course : Course}
    {progress : Option StepWatch} (h : OnCourse r c course) (hcontinues : Continues r r')
    (hnone : course.progress = none → progress = none)
    (hsome : r.Pursues → r'.Pursues → ∀ w, course.progress = some w → w.Tracked c →
      ∃ w', progress = some w' ∧ w'.target = w.target ∧ w'.Tracked c') :
    OnCourse r' c' { course with progress := progress } := by
  obtain ⟨hinOrder, hcurrent, hunqueued, hqueued⟩ := h
  cases hcontinues with
  | ended hended =>
    refine ⟨hinOrder, fun hrunning => ?_, fun hrunning => ?_, fun hpursues => ?_⟩
    · exact absurd (hended.symm.trans hrunning) Bool.false_ne_true
    · exact absurd (hended.symm.trans hrunning) Bool.false_ne_true
    · exact absurd (hended.symm.trans hpursues.1) Bool.false_ne_true
  | paused hpaused hrunning hindex =>
    refine ⟨hinOrder, fun _ => (hcurrent hrunning).trans hindex.symm, fun _ hgoes => ?_, fun hpursues => ?_⟩
    · exact absurd (hgoes.symm.trans hpaused) Bool.false_ne_true
    · exact absurd (hpursues.2.1.symm.trans hpaused) Bool.false_ne_true
  | same hrunning hpaused hstep hindex hsteps =>
    rw [← hrunning] at hcurrent hunqueued hsteps
    rw [← hpaused, ← hstep] at hunqueued
    refine ⟨hinOrder, fun h => (hcurrent h).trans hindex.symm,
      fun hruns hgoes hwaits => hnone (hunqueued hruns hgoes hwaits), fun hpursues => ?_⟩
    have hbefore : r.Pursues := ⟨hrunning ▸ hpursues.1, hpaused ▸ hpursues.2.1, hstep ▸ hpursues.2.2⟩
    obtain ⟨step, w, hat, hprogress, htarget, htracked⟩ := hqueued hbefore
    obtain ⟨w', hw', hsame, htracked'⟩ := hsome hbefore hpursues w hprogress htracked
    refine ⟨step, w', ?_, hw', hsame.trans htarget, htracked'⟩
    rw [hsteps hpursues.1, hindex]
    exact hat

/-- An event that commands, runs and resumes no sequence keeps the motors on course, if it spoils no
step. -/
theorem inv_event (platform : Platform ℚ δ) (o : Followed n δ) (event : DeckEvent n δ) (h : o.Inv)
    (hok : o.Undisturbed platform event) (htick : ∀ motor, event ≠ .sequenceTick motor)
    (hcommand : ∀ command, event = .command command → ¬ Deck.startsSequence command) (motor : Fin n) :
    OnCourse ((o.deck.step platform event).sequences motor)
      ((o.deck.step platform event).rig.channels motor)
      { o.courses motor with progress :=
        (run (Watched.step platform) o.watched (o.deck.eventOperations platform event)).watches motor } := by
  have hwatches := watches_target platform o.watched (o.deck.eventOperations platform event) motor
  have htracked : (run (Watched.step platform) o.watched (o.deck.eventOperations platform event)).Tracked
      fun motor => (o.deck.sequences motor).Pursues ∧ ((o.deck.step platform event).sequences motor).Pursues := by
    refine Watched.tracked_run platform (fun other hcared w hw => ?_) hok
    obtain ⟨step, watch, -, hprogress, -, hwatch⟩ := (h other).queued hcared.1
    obtain rfl : watch = w := Option.some.inj (hprogress.symm.trans hw)
    exact hwatch
  have hrig : (run (Watched.step platform) o.watched (o.deck.eventOperations platform event)).rig =
      (o.deck.step platform event).rig :=
    (Watched.run_rig platform o.watched _).trans (Deck.step_rig platform o.deck event htick).symm
  refine (h motor).continues (Deck.step_continues platform o.deck htick hcommand motor)
    (fun hnone => ?_) fun hbefore hafter w hw _ => ?_
  · have hnone : o.watched.watches motor = none := hnone
    rw [hnone] at hwatches
    exact Option.map_eq_none_iff.mp hwatches
  · have hsome : o.watched.watches motor = some w := hw
    rw [hsome] at hwatches
    obtain ⟨w', hw', htarget⟩ := Option.map_eq_some_iff.mp hwatches
    refine ⟨w', hw', htarget, ?_⟩
    rw [← hrig]
    exact htracked motor ⟨hbefore, hafter⟩ w' hw'

/-- A sequence that commands nothing at a tick stays as it was, ends, or is paused where it is. -/
theorem nextMove_rest {r after : BendSequenceRuntime} {busy : Bool} {c : StepperChannel ℚ δ}
    (h : r.nextMove busy c = .rest after) : Continues r after := by
  unfold BendSequenceRuntime.nextMove at h
  split at h
  · cases h
    exact .refl _
  case isFalse hactive =>
    have hrunning : r.running = true := by
      by_contra hidle
      exact hactive (Or.inl (by simpa using hidle))
    split at h
    · cases h
      exact .ended rfl
    split at h
    · cases h
      exact .ended rfl
    split at h
    · split at h
      · cases h
        exact .refl _
      split at h
      · cases h
        exact .paused rfl hrunning rfl
      dsimp only at h
      split at h
      · cases h
        exact .ended rfl
      · cases h
    · cases h

/-- What a sequence that commands a step does at a tick: the step is its current one, not commanded yet,
or the current one looks finished and it is the next. -/
theorem nextMove_send {r runtime : BendSequenceRuntime} {step : BendSequenceStep} {busy : Bool}
    {c : StepperChannel ℚ δ} (h : r.nextMove busy c = .send runtime step) :
    r.running = true ∧ r.paused = false ∧ runtime.stepQueued = false ∧ runtime.running = true ∧
      runtime.steps[runtime.stepIndex]? = some step ∧
      (r.stepQueued = false ∧ runtime.stepIndex = r.stepIndex ∨
        r.stepQueued = true ∧ runtime.stepIndex = r.stepIndex + 1 ∧ busy = false ∧
          ∃ current, r.steps[r.stepIndex]? = some current ∧ c.position = current.targetUsteps.toInt) := by
  unfold BendSequenceRuntime.nextMove at h
  split at h
  · cases h
  case isFalse hactive =>
    have hrunning : r.running = true := by
      by_contra hidle
      exact hactive (Or.inl (by simpa using hidle))
    have hgoes : r.paused = false := by
      by_contra hpaused
      exact hactive (Or.inr (by simpa using hpaused))
    split at h
    · cases h
    split at h
    · cases h
    case h_2 current hat =>
      split at h
      case isTrue hqueued =>
        split at h
        · cases h
        case isFalse hidle =>
          split at h
          · cases h
          case isFalse hplace =>
            dsimp only at h
            split at h
            · cases h
            case h_2 next hnext =>
              cases h
              refine ⟨hrunning, hgoes, rfl, hrunning, hnext, Or.inr ⟨hqueued, rfl, by simpa using hidle, ?_⟩⟩
              exact ⟨current, hat, not_not.mp hplace⟩
      case isFalse hqueued =>
        cases h
        have hwaits : r.stepQueued = false := by simpa using hqueued
        exact ⟨hrunning, hgoes, hwaits, hrunning, hat, Or.inl ⟨hwaits, rfl⟩⟩

/-- A step that the motor accepted is tracked from the start. -/
theorem moveToSteps_fresh {s after : Locked (Fin n) ℚ δ} {motor : Fin n} {step : BendSequenceStep}
    (h : s.moveToSteps motor step.targetUsteps.toInt step.holdS = (.ok (), after)) :
    (StepWatch.fresh step after.channel).Tracked after.channel := by
  have hsent : ∃ c : StepperChannel ℚ δ, after.channel = { c with
      target := step.targetUsteps.toInt
      holdRemainingS := step.holdS
      retractTarget := c.position
      retractAfterHold := false
      mode := if c.position ≠ step.targetUsteps.toInt then .moving
        else if step.holdS > 0 then .holding else .idle
      moving := decide (c.position ≠ step.targetUsteps.toInt)
      lastSource := "cmd:BEND" } := by
    unfold Locked.moveToSteps at h
    split at h
    · cases h
    split at h
    · cases h
    split at h
    · cases h
    unfold Locked.startMotion at h
    split at h
    · split at h
      · cases h
      case h_2 held hheld =>
        cases h
        exact ⟨held.channel, rfl⟩
    · cases h
      exact ⟨s.channel, rfl⟩
  obtain ⟨c, hc⟩ := hsent
  have hsound : (StepWatch.fresh step after.channel).Sound after.channel := by
    rw [hc]
    exact Locked.sent_sound le_rfl rfl rfl rfl fun _ => le_rfl
  refine ⟨le_rfl, hsound.imp_left fun hdone => ?_⟩
  exact decide_eq_true hdone

/-- Sending a motor to a step ends with the move to it, if it is accepted. -/
theorem sendTo_ok {s after : Locked (Fin n) ℚ δ} {motor : Fin n} {speed : Option ℚ} {target : Int64}
    {hold : ℚ} (h : Deck.sendTo motor s speed target hold = (.ok (), after)) :
    ∃ s' : Locked (Fin n) ℚ δ, s'.moveToSteps motor target.toInt hold = (.ok (), after) := by
  unfold Deck.sendTo at h
  split at h
  · exact ⟨s, h⟩
  · split at h
    · cases h
    · exact ⟨_, h⟩

/-- Commanding a step ends with the step queued and tracked, or not queued. -/
theorem startStep_cases (d : Deck n δ) (motor : Fin n) (runtime : BendSequenceRuntime)
    (step : BendSequenceStep) :
    let after := d.startStep motor runtime step
    after.sequences motor = { runtime with stepQueued := true } ∧
        (StepWatch.fresh step (after.rig.channels motor)).Tracked (after.rig.channels motor) ∨
      after.sequences motor = runtime ∨ ∃ text, after.sequences motor = runtime.pausedFor text := by
  unfold Deck.startStep
  split
  case h_1 after hsend =>
    obtain ⟨s', hmove⟩ := sendTo_ok hsend
    refine Or.inl ⟨Function.update_self _ _ _, ?_⟩
    simp only [Deck.setSequence, Deck.setChannel, Function.update_self]
    exact moveToSteps_fresh hmove
  case h_2 text after hsend =>
    dsimp only
    split
    · exact Or.inr (Or.inl (Function.update_self _ _ _))
    · exact Or.inr (Or.inr ⟨text, Function.update_self _ _ _⟩)

/-- A step that is commanded at a tick is in its turn. -/
theorem inTurn_of_send {o : Followed n δ} {motor : Fin n} {runtime : BendSequenceRuntime}
    {step : BendSequenceStep} (h : OnCourse (o.deck.sequences motor) (o.deck.rig.channels motor)
      (o.courses motor))
    (hsend : (o.deck.sequences motor).nextMove (o.deck.busy motor) (o.deck.rig.channels motor) =
      .send runtime step) : (o.courses motor).inTurn runtime.stepIndex = true := by
  obtain ⟨hrunning, hgoes, -, -, -, hturn⟩ := nextMove_send hsend
  unfold Course.inTurn
  rcases hturn with ⟨hwaits, hindex⟩ | ⟨hqueued, hindex, hidle, current, hat, hplace⟩
  · rw [h.unqueued hrunning hgoes hwaits]
    exact decide_eq_true (hindex.trans (h.current hrunning).symm)
  · obtain ⟨step, w, hstep, hprogress, htarget, -, hfinished | ⟨hbound, hflagged⟩⟩ :=
      h.queued ⟨hrunning, hgoes, hqueued⟩
    · rw [hprogress]
      simp only [hfinished, Bool.true_and]
      exact decide_eq_true (by rw [hindex, h.current hrunning])
    · -- a motor that is idle at the target of an unfinished step is not bound elsewhere
      obtain rfl : current = step := Option.some.inj (hat.symm.trans hstep)
      unfold StepWatch.Bound at hbound
      unfold Deck.busy at hidle
      cases hmode : (o.deck.rig.channels motor).mode with
      | idle =>
        rw [hmode] at hbound
        exact absurd (hplace.trans htarget.symm) hbound
      | moving =>
        rw [hflagged (Or.inl hmode)] at hidle
        cases hidle
      | retracting =>
        rw [hflagged (Or.inr hmode)] at hidle
        cases hidle
      | holding => simp [hmode] at hidle

/-- A tick of a sequence keeps its motor on course. -/
theorem inv_sequenceTick (platform : Platform ℚ δ) (o : Followed n δ) (motor : Fin n)
    (h : OnCourse (o.deck.sequences motor) (o.deck.rig.channels motor) (o.courses motor)) :
    OnCourse ((o.deck.tickBendSequence motor).sequences motor)
      ((o.deck.tickBendSequence motor).rig.channels motor)
      (o.noted platform motor (.sequenceTick motor)) := by
  unfold noted
  dsimp only
  rw [if_pos rfl]
  cases hmove : (o.deck.sequences motor).nextMove (o.deck.busy motor) (o.deck.rig.channels motor) with
  | rest after =>
    have hcontinues := nextMove_rest hmove
    unfold Deck.tickBendSequence
    rw [hmove]
    simp only [Deck.setSequence, Function.update_self]
    exact h.continues hcontinues id fun _ _ w hw htracked => ⟨w, hw, rfl, htracked⟩
  | send runtime step =>
    obtain ⟨hrunning, hgoes, hwaits, hruns, hstep, -⟩ := nextMove_send hmove
    have hturn := inTurn_of_send h hmove
    have hcases := startStep_cases o.deck motor runtime step
    have htick : o.deck.tickBendSequence motor = o.deck.startStep motor runtime step := by
      unfold Deck.tickBendSequence
      rw [hmove]
    rw [htick]
    dsimp only at hcases ⊢
    generalize o.deck.startStep motor runtime step = after at hcases ⊢
    unfold Course.commanded
    rw [h.inOrder, hturn]
    rcases hcases with ⟨hsequence, htracked⟩ | hsequence | ⟨text, hsequence⟩
    · rw [hsequence]
      refine ⟨rfl, fun _ => rfl, fun _ _ hnot => absurd hnot.symm Bool.false_ne_true, fun _ => ?_⟩
      exact ⟨step, _, hstep, rfl, rfl, htracked⟩
    · rw [hsequence, hwaits]
      refine ⟨rfl, fun _ => rfl, fun _ _ _ => rfl, fun hpursues => ?_⟩
      exact absurd (hwaits.symm.trans hpursues.2.2) Bool.false_ne_true
    · rw [hsequence]
      refine ⟨rfl, fun _ => rfl, fun _ hnot => absurd hnot.symm Bool.false_ne_true, fun hpursues => ?_⟩
      exact absurd hpursues.2.1.symm Bool.false_ne_true

/-- A tick of one motor's sequence is nothing to the others. -/
theorem tickBendSequence_other (d : Deck n δ) {motor other : Fin n} (h : other ≠ motor) :
    (d.tickBendSequence motor).sequences other = d.sequences other ∧
      (d.tickBendSequence motor).rig.channels other = d.rig.channels other := by
  unfold Deck.tickBendSequence
  split
  · exact ⟨Function.update_of_ne h _ _, rfl⟩
  · unfold Deck.startStep
    split
    · exact ⟨Function.update_of_ne h _ _, Function.update_of_ne h _ _⟩
    · exact ⟨Function.update_of_ne h _ _, Function.update_of_ne h _ _⟩

/-- Running or resuming a sequence keeps the motors on course: the step in progress is given up. -/
theorem inv_command (platform : Platform ℚ δ) (o : Followed n δ) {command : MotionCommand n} (h : o.Inv)
    (hstarts : Deck.startsSequence command) : (o.step platform (.command command)).Inv := by
  intro motor
  dsimp only [step]
  by_cases hcheck : (o.deck.check platform command).isOk = true
  · rw [Deck.step_command_ok hcheck]
    cases command with
    | bendSeqRun target name =>
      by_cases htarget : target = motor
      · subst htarget
        dsimp only [noted]
        rw [if_pos ⟨rfl, hcheck⟩]
        simp only [Deck.operate, Deck.operations, run_nil, Deck.record, Deck.setSequence, Function.update_self]
        refine ⟨(h target).inOrder, fun _ => rfl, fun _ _ _ => rfl, fun hpursues => ?_⟩
        exact absurd hpursues.2.2.symm Bool.false_ne_true.symm
      · dsimp only [noted]
        rw [if_neg fun hnot => htarget hnot.1]
        simp only [Deck.operate, Deck.operations, run_nil, Deck.record, Deck.setSequence,
          Function.update_of_ne (Ne.symm htarget)]
        exact h motor
    | bendSeqResume target =>
      by_cases htarget : target = motor
      · subst htarget
        dsimp only [noted]
        rw [if_pos ⟨rfl, hcheck⟩]
        simp only [Deck.operate, Deck.operations, run_nil, Deck.record, Deck.setSequence, Function.update_self]
        refine ⟨(h target).inOrder, (h target).current, fun _ _ _ => rfl, fun hpursues => ?_⟩
        exact absurd hpursues.2.2.symm Bool.false_ne_true.symm
      · dsimp only [noted]
        rw [if_neg fun hnot => htarget hnot.1]
        simp only [Deck.operate, Deck.operations, run_nil, Deck.record, Deck.setSequence,
          Function.update_of_ne (Ne.symm htarget)]
        exact h motor
    | _ => exact hstarts.elim
  · rw [Deck.step_command_error hcheck]
    cases command with
    | bendSeqRun target name =>
      dsimp only [noted]
      rw [if_neg fun hnot => hcheck hnot.2]
      exact h motor
    | bendSeqResume target =>
      dsimp only [noted]
      rw [if_neg fun hnot => hcheck hnot.2]
      exact h motor
    | _ => exact hstarts.elim

/-- An event that spoils no step keeps the motors on course. -/
theorem inv_step (platform : Platform ℚ δ) (o : Followed n δ) (event : DeckEvent n δ) (h : o.Inv)
    (hok : o.Undisturbed platform event) : (o.step platform event).Inv := by
  by_cases hcommand : ∃ command, event = .command command ∧ Deck.startsSequence command
  · obtain ⟨command, rfl, hstarts⟩ := hcommand
    exact inv_command platform o h hstarts
  have hquiet : ∀ command, event = .command command → ¬ Deck.startsSequence command :=
    fun command hevent hstarts => hcommand ⟨command, hevent, hstarts⟩
  by_cases htick : ∃ motor, event = .sequenceTick motor
  · obtain ⟨target, rfl⟩ := htick
    intro motor
    by_cases htarget : motor = target
    · subst htarget
      exact inv_sequenceTick platform o motor (h motor)
    · obtain ⟨hsequence, hchannel⟩ := tickBendSequence_other o.deck htarget
      dsimp only [step, Deck.step, noted]
      rw [hsequence, hchannel, if_neg (Ne.symm htarget)]
      exact h motor
  · have hevent := inv_event platform o event h hok (fun motor heq => htick ⟨motor, heq⟩) hquiet
    intro motor
    have hnoted : (o.step platform event).courses motor = { o.courses motor with progress :=
        (run (Watched.step platform) o.watched (o.deck.eventOperations platform event)).watches motor } := by
      cases event with
      | command command =>
        cases command with
        | bendSeqRun target name => exact absurd trivial (hquiet _ rfl)
        | bendSeqResume target => exact absurd trivial (hquiet _ rfl)
        | _ => rfl
      | sequenceTick target => exact absurd ⟨target, rfl⟩ htick
      | _ => rfl
    rw [hnoted]
    exact hevent motor

/-- When the deck starts, all motors are on course. -/
theorem inv_start (platform : Platform ℚ δ) (cfg : DeckConfig) (channel : Fin n → ChannelConfig ℚ)
    (driver : Fin n → Option δ) (planner : FallbackPlanner n) :
    (start (.start platform cfg channel driver planner)).Inv :=
  fun _ => ⟨rfl, fun _ => rfl, fun _ _ _ => rfl, fun hpursues => absurd hpursues.1 Bool.false_ne_true⟩

/-- In every run in which nothing spoils a step that its sequence pursues, every step of every sequence is
commanded in its turn: the first one when the sequence is run, and each next one when its motor has
reached the target of the step before and held it for its hold. -/
theorem inOrder_of_undisturbed (platform : Platform ℚ δ) (cfg : DeckConfig)
    (channel : Fin n → ChannelConfig ℚ) (driver : Fin n → Option δ) (planner : FallbackPlanner n)
    (events : List (DeckEvent n δ))
    (h : Meets (step platform) (Undisturbed platform) (start (.start platform cfg channel driver planner))
      events) :
    Holds (step platform) InOrder (start (.start platform cfg channel driver planner)) events :=
  holds_of_meets (inv_step platform) (fun _ hinv motor => (hinv motor).inOrder)
    (inv_start platform cfg channel driver planner) h

/-- The operator arms and runs a bend of two steps on the first motor, which goes to the first, holds
there and goes to the second. -/
def wholeBend : List (DeckEvent 2 SimulatedStepperDriver) :=
  [.command .arm, .command (.stepperEnable Rig.benchMotor), .command (.setPositionZero Rig.benchMotor),
    .command (.bendSeqLoad Rig.benchMotor "bend" [some ⟨some 2, some 1, none⟩, some ⟨some 0, some 0, none⟩]),
    .command (.bendSeqRun Rig.benchMotor "bend"), .sequenceTick Rig.benchMotor,
    .channelTick Rig.benchMotor 1 1, .sequenceTick Rig.benchMotor, .channelTick Rig.benchMotor 1 1,
    .sequenceTick Rig.benchMotor, .channelTick Rig.benchMotor 1 1]

/-- The bend that is left alone commands its steps in their turn. -/
theorem inOrder_of_undisturbed_wholeBend :
    Holds (step SimulatedStepperDriver.platform) InOrder (start Deck.bench) wholeBend :=
  inOrder_of_undisturbed SimulatedStepperDriver.platform _ _ _ _ wholeBend (by decide +kernel)

/-- The operator runs the bend and stops the motor while it holds at the first step. -/
def stoppedHold : List (DeckEvent 2 SimulatedStepperDriver) :=
  [.command .arm, .command (.stepperEnable Rig.benchMotor), .command (.setPositionZero Rig.benchMotor),
    .command (.bendSeqLoad Rig.benchMotor "bend" [some ⟨some 2, some 10, none⟩, some ⟨some 0, some 0, none⟩]),
    .command (.bendSeqRun Rig.benchMotor "bend"), .sequenceTick Rig.benchMotor,
    .channelTick Rig.benchMotor 1 1, .command (.stepperStop Rig.benchMotor), .sequenceTick Rig.benchMotor]

/-- The stop looks like the end of the hold: the next step is commanded at once. -/
theorem stoppedHold_not_inOrder :
    ¬ Holds (step SimulatedStepperDriver.platform) InOrder (start Deck.bench) stoppedHold := by
  intro h
  have hlast := h.last Rig.benchMotor
  have hbroken : ((run (step SimulatedStepperDriver.platform) (start Deck.bench)
      stoppedHold).courses Rig.benchMotor).inOrder = false := by
    decide +kernel
  exact absurd (hbroken.symm.trans hlast) Bool.false_ne_true

end Followed

end Coatheal.Motion
