import Coatheal.Fallback.PlanChange
import Coatheal.Library.DecimalReading

/-!
# A plan through its own file

A restart that finds the plan's own file makes no difference exactly when every
hold and speed has at most six significant digits and no pending bend waits for
a deadline whose clock has started: the stream prints six digits, and the clock
is not written.
-/

namespace Coatheal.Fallback

open Coatheal.Library Coatheal.Library.Text

variable {n : ℕ}

namespace FallbackPlanner

/-- The planner after a restart that finds the plan's own file. -/
def restarted (p : FallbackPlanner n) : FallbackPlanner n :=
  (FallbackPlanner.new p.cfg p.addressable).loadFrom (some p.serialize)

/-- A restart with the plan's own file makes no difference: the file is accepted, the state and every
motor's target, hold, speed and state are restored, and the next tick does the same. The clock of a
tick is not behind that of the ticks before. -/
structure SurvivesRestart (p : FallbackPlanner n) : Prop where
  accepted : ((FallbackPlanner.new p.cfg p.addressable : FallbackPlanner n).deserialize p.serialize).2 = true
  state : p.restarted.state = p.state
  motors : ∀ i, p.restarted.motors i = p.motors i
  nextTick : ∀ input, (p.deadlineStarted = true → p.deadlineStart ≤ input.now) →
    (p.restarted.tick input).2 = (p.tick input).2 ∧
      (p.restarted.tick input).1.state = (p.tick input).1.state ∧
      (p.restarted.tick input).1.motors = (p.tick input).1.motors

/-- A double that six significant digits tell from every other one. -/
def Printable (x : ℚ) : Prop := inDoubleRange x = true ∧ HasSixDigits x

/-- The hold and the speed of every bend have at most six significant digits. -/
def SixDigitNumbers (p : FallbackPlanner n) : Prop :=
  ∀ i, (p.motors i).configured = true → Printable (p.motors i).holdS ∧ Printable (p.motors i).speedHz

/-- No pending bend of a plan under way waits for a deadline whose clock has started. -/
def NoClockToLose (p : FallbackPlanner n) : Prop :=
  p.armed = true → p.deadlineStarted = true → 0 < p.cfg.bendDeadlineS →
    ∀ i, (p.motors i).configured = true → (p.motors i).state ≠ .pending

/-- Two planners that a tick tells apart by their deadline clocks only. -/
structure Alike (p q : FallbackPlanner n) : Prop where
  cfg : q.cfg = p.cfg
  state : q.state = p.state
  motors : q.motors = p.motors
  counts : ∀ i, 0 ≤ p.ticksSinceStart i
  countsOther : ∀ i, 0 ≤ q.ticksSinceStart i

/-- What completion tracking makes of a motor's plan. -/
def trackedPlan (motor : FallbackMotorInput) (plan : FallbackMotorPlan) : FallbackMotorPlan :=
  if plan.state = .running ∧ motor.movingOrHolding = false then
    { plan with state := if motor.aborted then .failed else .done }
  else plan

/-- Completion tracking of one motor, when its tick count is natural. -/
theorem trackOne_motors {p : FallbackPlanner n} (input : FallbackTickInput) (i : Fin n)
    (hcount : 0 ≤ p.ticksSinceStart i) :
    (trackOne input p i).motors =
      Function.update p.motors i (trackedPlan (input.motor i) (p.motors i)) := by
  have hticks : 1 ≤ p.ticksSinceStart i + 1 := by omega
  unfold trackOne trackedPlan
  by_cases hrun : (p.motors i).state = .running
  · by_cases hmoving : (input.motor i).movingOrHolding = false
    · simp only [hrun, hticks, hmoving, and_self, if_true]
      cases (input.motor i).aborted with
      | true => simp [setMotorState]
      | false => simp [setMotorState]
    · simp [hrun, hmoving]
  · simp [hrun]

/-- Completion tracking treats planners alike. -/
theorem Alike.trackOne {p q : FallbackPlanner n} (h : Alike p q) (input : FallbackTickInput) (i : Fin n) :
    Alike (FallbackPlanner.trackOne input p i) (FallbackPlanner.trackOne input q i) := by
  have hp := trackOne_tracks input p i
  have hq := trackOne_tracks input q i
  refine ⟨hq.cfg.trans (h.cfg.trans hp.cfg.symm), hq.state.trans (h.state.trans hp.state.symm), ?_,
    (trackOne_noted input p i).counts h.counts, (trackOne_noted input q i).counts h.countsOther⟩
  rw [trackOne_motors input i (h.counts i), trackOne_motors input i (h.countsOther i), h.motors]

/-- Whether everything is settled, and whether something failed, is told by the motors. -/
theorem settle_congr {p q : FallbackPlanner n} (h : Alike p q) : Alike p.settle q.settle := by
  have hsettled : q.allSettled = p.allSettled := by
    unfold allSettled
    rw [h.motors]
  have hfailed : q.anyFailed = p.anyFailed := by
    unfold anyFailed
    rw [h.motors]
  unfold settle
  rw [hsettled, hfailed]
  split
  · exact ⟨h.cfg, rfl, h.motors, h.counts, h.countsOther⟩
  · exact h

/-- Tracking treats planners alike. -/
theorem Alike.track {p q : FallbackPlanner n} (h : Alike p q) (input : FallbackTickInput) :
    Alike (p.track input) (q.track input) := by
  have hfold : ∀ (l : List (Fin n)) (p q : FallbackPlanner n), Alike p q →
      Alike (l.foldl (FallbackPlanner.trackOne input) p) (l.foldl (FallbackPlanner.trackOne input) q) := by
    intro l
    induction l with
    | nil => exact fun _ _ h => h
    | cons i l ih => exact fun p q h => ih _ _ (h.trackOne input i)
  have hall := hfold (List.finRange n) p q h
  unfold FallbackPlanner.track
  simp only
  rw [hall.state]
  split
  · exact settle_congr hall
  · exact hall

/-- The start of the deadline clock treats planners alike. -/
theorem Alike.startDeadline {p q : FallbackPlanner n} (h : Alike p q) (now : ℤ) :
    Alike (p.startDeadline now) (q.startDeadline now) := by
  have hcounts : ∀ r : FallbackPlanner n, (r.startDeadline now).ticksSinceStart = r.ticksSinceStart := by
    intro r
    unfold FallbackPlanner.startDeadline
    split <;> rfl
  obtain ⟨hpm, hps, hpc, -, -⟩ := startDeadline_spec p now
  obtain ⟨hqm, hqs, hqc, -, -⟩ := startDeadline_spec q now
  refine ⟨hqc.trans (h.cfg.trans hpc.symm), hqs.trans (h.state.trans hps.symm),
    hqm.trans (h.motors.trans hpm.symm), ?_, ?_⟩
  · rw [hcounts]
    exact h.counts
  · rw [hcounts]
    exact h.countsOther

/-- The search for the motor to start treats planners alike. -/
theorem Alike.startLoop {p q : FallbackPlanner n} (h : Alike p q) (input : FallbackTickInput)
    (deadlinePassed : Bool) (l : List (Fin n)) :
    (FallbackPlanner.startLoop input deadlinePassed l q).2 =
        (FallbackPlanner.startLoop input deadlinePassed l p).2 ∧
      Alike (FallbackPlanner.startLoop input deadlinePassed l p).1
        (FallbackPlanner.startLoop input deadlinePassed l q).1 := by
  induction l generalizing p q with
  | nil => exact ⟨rfl, settle_congr h⟩
  | cons i l ih =>
    have hset : ∀ state, (q.setMotorState i state).motors = (p.setMotorState i state).motors := by
      intro state
      unfold setMotorState
      rw [h.motors]
    unfold FallbackPlanner.startLoop
    simp only [h.motors, h.cfg]
    split
    · exact ih h
    · split
      · refine ⟨by simp only [begin, h.motors], h.cfg, rfl, hset _, counts_update le_rfl h.counts,
          counts_update le_rfl h.countsOther⟩
      · split
        · exact ih ⟨h.cfg, h.state, hset _, h.counts, h.countsOther⟩
        · exact ⟨rfl, h⟩

/-- Without a pending motor the search only settles the plan. -/
theorem startLoop_of_nonePending {p : FallbackPlanner n} (input : FallbackTickInput) (deadlinePassed : Bool)
    {l : List (Fin n)} (h : ∀ i ∈ l, (p.motors i).configured = true → (p.motors i).state ≠ .pending) :
    FallbackPlanner.startLoop input deadlinePassed l p = (p.settle, none) := by
  induction l with
  | nil => rfl
  | cons i l ih =>
    have hpass : (p.motors i).configured = false ∨ (p.motors i).state ≠ .pending := by
      cases hconfigured : (p.motors i).configured with
      | false => exact Or.inl rfl
      | true => exact Or.inr (h i List.mem_cons_self hconfigured)
    unfold FallbackPlanner.startLoop
    simp only
    rw [if_pos hpass]
    exact ih fun j hj => h j (List.mem_cons_of_mem _ hj)

/-- A tick of an armed plan inside the window, with no bend running, searches for the motor to start. -/
theorem tick_of_open {p : FallbackPlanner n} {input : FallbackTickInput} (harmed : (p.track input).armed = true)
    (hwindow : input.windowPhase = true) (hnone : (p.track input).anyRunning = false) :
    p.tick input = FallbackPlanner.startLoop input
      (p.cfg.deadlineReached (p.deadlineFrom input.now) input.now) (List.finRange n)
        ((p.track input).startDeadline input.now) := by
  obtain ⟨hmotors, -, hcfg, hstarted, hstart⟩ := startDeadline_spec (p.track input) input.now
  obtain ⟨-, hcfg', hstarted', hstart', -⟩ := track_spec p input
  have hrunning : ((p.track input).startDeadline input.now).anyRunning = false := by
    unfold anyRunning
    rw [hmotors]
    exact hnone
  unfold tick
  simp only
  rw [if_neg (by simp [harmed]), if_neg (by simp [hwindow]), if_neg (by simp [hrunning]), hstarted, hcfg,
    hcfg', hstart, Bool.true_and]
  unfold deadlineFrom
  rw [hstarted', hstart']

/-- Any other tick starts nothing: it tracks, and inside the window it starts the clock. -/
theorem tick_of_closed {p : FallbackPlanner n} {input : FallbackTickInput}
    (h : ¬ ((p.track input).armed = true ∧ input.windowPhase = true ∧ (p.track input).anyRunning = false)) :
    p.tick input = (if (p.track input).armed ∧ input.windowPhase then
      (p.track input).startDeadline input.now else p.track input, none) := by
  unfold tick
  dsimp only
  by_cases harmed : (p.track input).armed = true
  · by_cases hwindow : input.windowPhase = true
    · have hrun : ((p.track input).startDeadline input.now).anyRunning = true := by
        have hbusy : (p.track input).anyRunning = true := by
          cases hrun : (p.track input).anyRunning with
          | true => rfl
          | false => exact absurd ⟨harmed, hwindow, hrun⟩ h
        unfold anyRunning at hbusy ⊢
        rw [(startDeadline_spec _ _).1]
        exact hbusy
      simp [harmed, hwindow, hrun]
    · simp [harmed, hwindow]
  · simp [harmed]

/-- A tick treats planners alike when they agree on the deadline, if it matters. -/
theorem Alike.tick {p q : FallbackPlanner n} (h : Alike p q) (input : FallbackTickInput)
    (hdeadline : p.cfg.deadlineReached (q.deadlineFrom input.now) input.now =
        p.cfg.deadlineReached (p.deadlineFrom input.now) input.now ∨
      (∀ i, (p.motors i).configured = true → (p.motors i).state ≠ .pending) ∨ p.armed = false) :
    (q.tick input).2 = (p.tick input).2 ∧ (q.tick input).1.state = (p.tick input).1.state ∧
      (q.tick input).1.motors = (p.tick input).1.motors := by
  have htrack := h.track input
  have harmed : (q.track input).armed = (p.track input).armed := by
    unfold armed
    rw [htrack.state]
  have hrunning : (q.track input).anyRunning = (p.track input).anyRunning := by
    unfold anyRunning
    rw [htrack.motors]
  by_cases hopen : (p.track input).armed = true ∧ input.windowPhase = true ∧
      (p.track input).anyRunning = false
  · obtain ⟨hp, hwindow, hnone⟩ := hopen
    have hclock := htrack.startDeadline input.now
    rw [tick_of_open hp hwindow hnone, tick_of_open (harmed.trans hp) hwindow (hrunning.trans hnone), h.cfg]
    rcases hdeadline with hsame | hrest | hunarmed
    · rw [hsame]
      obtain ⟨haction, hafter⟩ := hclock.startLoop input
        (p.cfg.deadlineReached (p.deadlineFrom input.now) input.now) (List.finRange n)
      exact ⟨haction, hafter.state, hafter.motors⟩
    · -- No bend is pending before the tick, and tracking makes none pending.
      have hpending : ∀ i, (((p.track input).startDeadline input.now).motors i).configured = true →
          (((p.track input).startDeadline input.now).motors i).state ≠ .pending := by
        intro i hi
        rw [(startDeadline_spec _ _).1] at hi ⊢
        rcases (track_spec p input).1 i with heq | ⟨hrun, heq | heq⟩
        · rw [heq] at hi ⊢
          exact hrest i hi
        all_goals
          rw [heq]
          nofun
      rw [startLoop_of_nonePending input _ fun i _ => hpending i,
        startLoop_of_nonePending input _ fun i _ => by rw [hclock.motors]; exact hpending i]
      exact ⟨rfl, (settle_congr hclock).state, (settle_congr hclock).motors⟩
    · exfalso
      have hrest : p.state ≠ .armed ∧ p.state ≠ .running := by
        simpa [armed] using hunarmed
      rcases (track_spec p input).2.2.2.2 with heq | ⟨hrun, -⟩
      · rcases armed_iff.mp hp with ha | ha
        · exact hrest.1 (heq ▸ ha)
        · exact hrest.2 (heq ▸ ha)
      · exact hrest.2 hrun
  · have hclosed : ¬ ((q.track input).armed = true ∧ input.windowPhase = true ∧
        (q.track input).anyRunning = false) := by
      rw [harmed, hrunning]
      exact hopen
    rw [tick_of_closed hopen, tick_of_closed hclosed, harmed]
    split
    · exact ⟨rfl, (htrack.startDeadline input.now).state, (htrack.startDeadline input.now).motors⟩
    · exact ⟨rfl, htrack.state, htrack.motors⟩

/-- Tracking of a list of motors, each once. -/
theorem foldl_trackOne_motors {p : FallbackPlanner n} (input : FallbackTickInput) {l : List (Fin n)}
    (hnodup : l.Nodup) (hcounts : ∀ i, 0 ≤ p.ticksSinceStart i) (j : Fin n) :
    (l.foldl (trackOne input) p).motors j =
      if j ∈ l then trackedPlan (input.motor j) (p.motors j) else p.motors j := by
  induction l generalizing p with
  | nil => rfl
  | cons i l ih =>
    obtain ⟨hnotin, hnodup⟩ := List.nodup_cons.mp hnodup
    rw [List.foldl_cons, ih hnodup ((trackOne_noted input p i).counts hcounts), trackOne_motors input i (hcounts i)]
    by_cases hj : j = i
    · subst hj
      simp [hnotin]
    · simp [hj]

/-- Tracking looks at every motor. -/
theorem track_motors {p : FallbackPlanner n} (input : FallbackTickInput)
    (hcounts : ∀ i, 0 ≤ p.ticksSinceStart i) (j : Fin n) :
    (p.track input).motors j = trackedPlan (input.motor j) (p.motors j) := by
  have hfold := foldl_trackOne_motors input (List.nodup_finRange n) hcounts j
  rw [if_pos (List.mem_finRange j)] at hfold
  unfold track
  dsimp only
  split
  · rcases settle_cases ((List.finRange n).foldl (trackOne input) p) with heq | ⟨state, -, heq⟩
    · rw [heq]
      exact hfold
    · rw [heq]
      exact hfold
  · exact hfold

/-- A plan with a pending bend is not over. -/
theorem track_state {p : FallbackPlanner n} (input : FallbackTickInput) {i : Fin n}
    (hconfigured : (p.motors i).configured = true) (hpending : (p.motors i).state = .pending) :
    (p.track input).state = p.state := by
  have hfold := foldl_trackOne_tracks input (List.finRange n) p
  have hsame : ((List.finRange n).foldl (trackOne input) p).motors i = p.motors i := by
    rcases hfold.motors i with heq | ⟨hrun, -⟩
    · exact heq
    · rw [hpending] at hrun
      cases hrun
  have hopen : ((List.finRange n).foldl (trackOne input) p).allSettled = false := by
    unfold allSettled
    refine List.all_eq_false.mpr ⟨i, List.mem_finRange i, ?_⟩
    rw [hsame, hconfigured, hpending]
    decide
  unfold track
  dsimp only
  split
  · rw [settle, if_neg (by simp [hopen])]
    exact hfold.state
  · exact hfold.state

/-- When the deadline has passed and no motor is ready, every pending bend is skipped. -/
theorem startLoop_skipped {p : FallbackPlanner n} {input : FallbackTickInput}
    (hready : ∀ i : Fin n, (input.motor i).ready = false) {l : List (Fin n)} {i : Fin n}
    (h : (p.motors i).state = .skipped ∨
      i ∈ l ∧ (p.motors i).configured = true ∧ (p.motors i).state = .pending) :
    ((startLoop input true l p).1.motors i).state = .skipped := by
  induction l generalizing p with
  | nil =>
    rcases h with h | ⟨hmem, -⟩
    · rcases settle_cases p with heq | ⟨state, -, heq⟩
      · rw [startLoop, heq]
        exact h
      · rw [startLoop, heq]
        exact h
    · cases hmem
  | cons j l ih =>
    have hset : ((p.setMotorState j .skipped).motors i).state =
        if i = j then .skipped else (p.motors i).state := by
      rw [setMotorState_motors]
      split <;> rfl
    have hset' : ((p.setMotorState j .skipped).motors i).configured = (p.motors i).configured := by
      rw [setMotorState_motors]
      split
      · rename_i heq
        rw [heq]
      · rfl
    unfold startLoop
    simp only
    split
    · rename_i hpass
      refine ih ?_
      rcases h with h | ⟨hmem, hconfigured, hpending⟩
      · exact Or.inl h
      · rcases List.mem_cons.mp hmem with rfl | hmem
        · rw [hconfigured, hpending] at hpass
          rcases hpass with h | h
          · cases h
          · exact absurd rfl h
        · exact Or.inr ⟨hmem, hconfigured, hpending⟩
    · rw [if_neg (by simp [hready j]), if_pos (by simp [hready j])]
      refine ih ?_
      show ((p.setMotorState j .skipped).motors i).state = .skipped ∨ i ∈ l ∧
        ((p.setMotorState j .skipped).motors i).configured = true ∧
          ((p.setMotorState j .skipped).motors i).state = .pending
      rw [hset, hset']
      by_cases hi : i = j
      · exact Or.inl (if_pos hi)
      · rw [if_neg hi]
        rcases h with h | ⟨hmem, hrest⟩
        · exact Or.inl h
        · exact Or.inr ⟨(List.mem_cons.mp hmem).resolve_left hi, hrest⟩

/-- Before the deadline, with no motor ready, every bend waits. -/
theorem startLoop_waits {p : FallbackPlanner n} {input : FallbackTickInput}
    (hready : ∀ i : Fin n, (input.motor i).ready = false) (l : List (Fin n)) :
    (startLoop input false l p).1.motors = p.motors := by
  induction l with
  | nil =>
    rcases settle_cases p with heq | ⟨state, -, heq⟩
    · rw [startLoop, heq]
    · rw [startLoop, heq]
  | cons i l ih =>
    unfold startLoop
    simp only
    split
    · exact ih
    · rw [if_neg (by simp [hready i]), if_neg (by simp)]

/-- A restart loses the clock of a pending bend that waits for its deadline. -/
theorem clock_lost {p q : FallbackPlanner n} (h : Alike p q) (hstarted : p.deadlineStarted = true)
    (hlost : q.deadlineStarted = false) (harmed : p.armed = true) (hdeadline : 0 < p.cfg.bendDeadlineS)
    {i : Fin n} (hconfigured : (p.motors i).configured = true) (hpending : (p.motors i).state = .pending) :
    ∃ input : FallbackTickInput, p.deadlineStart ≤ input.now ∧
      (q.tick input).1.motors ≠ (p.tick input).1.motors := by
  let wait : ℤ := ⌈p.cfg.bendDeadlineS * 1000000000⌉
  let input : FallbackTickInput :=
    { fallbackActive := true, phase := .float, now := p.deadlineStart + wait, motors := [] }
  have hwait : p.cfg.bendDeadlineS * 1000000000 ≤ (wait : ℚ) := Int.le_ceil _
  have hwaitPos : 0 ≤ wait := Int.ceil_nonneg (by positivity)
  have hready : ∀ j : Fin n, (input.motor j).ready = false := fun _ => rfl
  have hsame : (p.track input).motors i = p.motors i := by
    rw [track_motors input h.counts, trackedPlan, if_neg (by simp [hpending])]
  have hnone : ∀ r : FallbackPlanner n, (∀ j, 0 ≤ r.ticksSinceStart j) → (r.track input).anyRunning = false := by
    intro r hcounts
    refine anyRunning_eq_false.mpr fun j => ?_
    rw [track_motors input hcounts]
    unfold trackedPlan
    split
    · show (if (input.motor j).aborted then FallbackMotorState.failed else .done) ≠ .running
      split <;> decide
    · rename_i hnot
      exact fun hrun => hnot ⟨hrun, rfl⟩
  have hopen : (p.track input).armed = true := by
    rw [armed_iff, track_state input hconfigured hpending]
    exact armed_iff.mp harmed
  have hopen' : (q.track input).armed = true := by
    rw [armed_iff, (h.track input).state]
    exact armed_iff.mp hopen
  have hpast : p.cfg.deadlineReached (p.deadlineFrom input.now) input.now = true := by
    have hnow : ((input.now - p.deadlineFrom input.now : ℤ) : ℚ) = (wait : ℚ) := by
      rw [deadlineFrom, if_pos hstarted]
      exact congrArg _ (add_sub_cancel_left p.deadlineStart wait)
    rw [FallbackPlannerConfig.deadlineReached, hnow]
    refine decide_eq_true ?_
    rw [billionth]
    linarith
  have hahead : q.cfg.deadlineReached (q.deadlineFrom input.now) input.now = false := by
    have hnow : ((input.now - q.deadlineFrom input.now : ℤ) : ℚ) = 0 := by
      rw [deadlineFrom, if_neg (by simp [hlost]), sub_self, Int.cast_zero]
    rw [FallbackPlannerConfig.deadlineReached, hnow, zero_mul, h.cfg]
    exact decide_eq_false (not_le.mpr hdeadline)
  refine ⟨input, le_add_of_nonneg_right hwaitPos, fun heq => ?_⟩
  rw [tick_of_open hopen rfl (hnone p h.counts), tick_of_open hopen' rfl (hnone q h.countsOther), hpast,
    hahead, startLoop_waits hready, (startDeadline_spec _ _).1, (h.track input).motors] at heq
  have hskipped : ((startLoop input true (List.finRange n) ((p.track input).startDeadline input.now)).1.motors
      i).state = .skipped := by
    refine startLoop_skipped hready (Or.inr ⟨List.mem_finRange i, ?_⟩)
    rw [(startDeadline_spec _ _).1, hsame]
    exact ⟨hconfigured, hpending⟩
  rw [← congrFun heq i, hsame, hpending] at hskipped
  cases hskipped

/-- A bend is the same after it was written and read, with its numbers readable, exactly when its
numbers are printable. -/
theorem rereadPlan_eq_iff {plan : FallbackMotorPlan} (h : plan.configured = true) :
    readablePlan plan = true ∧ rereadPlan plan = plan ↔ Printable plan.holdS ∧ Printable plan.speedHz := by
  have hnumber : ∀ x : ℚ, readable x = true ∧ reread x = x ↔ Printable x := by
    intro x
    rw [Printable, ← wholeDouble_formatG_eq_some_iff]
    unfold readable reread
    cases hread : wholeDouble (formatG x) with
    | none => simp
    | some y => simp
  have hplan : rereadPlan plan = plan ↔ reread plan.holdS = plan.holdS ∧ reread plan.speedHz = plan.speedHz := by
    rw [rereadPlan, if_pos h]
    constructor
    · intro heq
      exact ⟨congrArg FallbackMotorPlan.holdS heq, congrArg FallbackMotorPlan.speedHz heq⟩
    · rintro ⟨hhold, hspeed⟩
      rw [hhold, hspeed]
  rw [hplan, ← hnumber, ← hnumber, readablePlan, h, Bool.not_true, Bool.false_or, Bool.and_eq_true]
  tauto

/-- What is read back is what was written, exactly when the numbers are printable. -/
theorem allReread_iff {p : FallbackPlanner n} (hp : p.Proper) :
    (((List.finRange n).all fun i => readablePlan (p.motors i)) = true ∧
      ∀ i, rereadPlan (p.motors i) = p.motors i) ↔ p.SixDigitNumbers := by
  simp only [List.all_eq_true, List.mem_finRange, forall_const]
  constructor
  · rintro ⟨hread, hsame⟩ i hi
    exact (rereadPlan_eq_iff hi).mp ⟨hread i, hsame i⟩
  · intro hsix
    have hboth : ∀ i, readablePlan (p.motors i) = true ∧ rereadPlan (p.motors i) = p.motors i := by
      intro i
      by_cases hi : (p.motors i).configured = true
      · exact (rereadPlan_eq_iff hi).mpr (hsix i hi)
      · have hblank := hp.blank i (by simpa using hi)
        rw [hblank]
        exact ⟨rfl, rfl⟩
    exact ⟨fun i => (hboth i).1, fun i => (hboth i).2⟩

/-- A restart with the plan's own file makes no difference exactly when every number has at most six
significant digits and no pending bend waits for a deadline whose clock has started. -/
theorem survivesRestart_iff {cfg : FallbackPlannerConfig} {p : FallbackPlanner n}
    (h : PlanStore.Reaches cfg p) : p.SurvivesRestart ↔ p.SixDigitNumbers ∧ p.NoClockToLose := by
  have hp := PlanStore.proper_of_reaches h
  have hread := deserialize_serialize hp.wellFormed (FallbackPlanner.new p.cfg p.addressable)
  have hsame : ((List.finRange n).all fun i => readablePlan (p.motors i)) = true →
      (∀ i, rereadPlan (p.motors i) = p.motors i) →
        p.restarted.state = p.state ∧ Alike p p.restarted ∧ p.restarted.deadlineStarted = false := by
    intro hall hsame
    rw [if_pos hall] at hread
    have hrestarted : p.restarted = _ := congrArg Prod.fst hread
    refine ⟨by rw [hrestarted], ⟨by rw [hrestarted]; rfl, by rw [hrestarted], ?_, hp.counts, ?_⟩, ?_⟩
    · rw [hrestarted]
      exact funext hsame
    · rw [hrestarted]
      exact fun _ => le_rfl
    · rw [hrestarted]
      rfl
  constructor
  · intro hsurvives
    have hall : ((List.finRange n).all fun i => readablePlan (p.motors i)) = true := by
      by_contra hno
      have haccepted := hsurvives.accepted
      rw [hread, if_neg hno] at haccepted
      cases haccepted
    have hreread : ∀ i, rereadPlan (p.motors i) = p.motors i := by
      intro i
      have hmotor := hsurvives.motors i
      rw [restarted, loadFrom, hread, if_pos hall] at hmotor
      exact hmotor
    obtain ⟨-, halike, hlost⟩ := hsame hall hreread
    refine ⟨(allReread_iff hp).mp ⟨hall, hreread⟩, fun harmed hstarted hdeadline i hconfigured hpending => ?_⟩
    obtain ⟨input, hlater, hdiffer⟩ := clock_lost halike hstarted hlost harmed hdeadline hconfigured hpending
    exact hdiffer (hsurvives.nextTick input fun _ => hlater).2.2
  · rintro ⟨hsix, hclock⟩
    obtain ⟨hall, hreread⟩ := (allReread_iff hp).mpr hsix
    obtain ⟨hstate, halike, hlost⟩ := hsame hall hreread
    refine ⟨by rw [hread, if_pos hall], hstate, fun i => congrFun halike.motors i, fun input hlater => ?_⟩
    refine halike.tick input ?_
    have hfrom : p.restarted.deadlineFrom input.now = input.now := by
      rw [deadlineFrom, if_neg (by simp [hlost])]
    rw [hfrom]
    by_cases harmed : p.armed = true
    · by_cases hstarted : p.deadlineStarted = true
      · by_cases hdeadline : 0 < p.cfg.bendDeadlineS
        · exact Or.inr (Or.inl (hclock harmed hstarted hdeadline))
        · -- A deadline of zero has passed whenever its clock started.
          have hreached : ∀ start, start ≤ input.now → p.cfg.deadlineReached start input.now = true := by
            intro start hle
            have hnonneg : (0 : ℚ) ≤ ((input.now - start : ℤ) : ℚ) := by
              exact_mod_cast sub_nonneg.mpr hle
            refine decide_eq_true ((not_lt.mp hdeadline).trans (mul_nonneg hnonneg ?_))
            norm_num [billionth]
          left
          rw [hreached input.now le_rfl, deadlineFrom, if_pos hstarted, hreached _ (hlater hstarted)]
      · left
        rw [deadlineFrom, if_neg hstarted]
    · exact Or.inr (Or.inr (by simpa using harmed))

/-- A plan of one bend, loaded and armed. -/
def oneBend (holdS : ℚ) : FallbackPlanner 1 :=
  (run PlanStore.step (.boot {} (by decide) none)
    [.plan 0 400 holdS 0, .take .command, .openFile .command true, .writeFile .command none, .arm]).planner

/-- The onboard can have the plan of one bend. -/
theorem oneBend_reaches (holdS : ℚ) : PlanStore.Reaches {} (oneBend holdS) := ⟨_, rfl⟩

/-- A hold of one minute is printed with all its digits. -/
theorem oneBend_minute_survivesRestart : (oneBend 60).SurvivesRestart := by
  refine (survivesRestart_iff (oneBend_reaches 60)).mpr ⟨fun i _ => ?_, fun _ hstarted => ?_⟩
  · have hminute : (oneBend 60).motors i = ⟨true, 400, 60, 0, .pending⟩ := by
      rw [Subsingleton.elim i 0]
      decide +kernel
    rw [hminute]
    exact ⟨⟨by decide +kernel, 60, 0, by decide, by decide +kernel⟩,
      ⟨by decide +kernel, 0, 0, by decide, by decide +kernel⟩⟩
  · exact absurd hstarted (by decide +kernel)

/-- A hold of 1000.125 seconds is a double, but its seventh digit is not printed. -/
theorem oneBend_sevenDigits_not_survivesRestart :
    wholeDouble "1000.125".toList = some (8001 / 8) ∧ PlanStore.Reaches {} (oneBend (8001 / 8)) ∧
      ¬ (oneBend (8001 / 8)).SurvivesRestart := by
  refine ⟨by decide +kernel, oneBend_reaches _, fun h => ?_⟩
  exact absurd (h.motors 0) (by decide +kernel)

end FallbackPlanner

end Coatheal.Fallback
