import Coatheal.Heater.Scheduler
import Coatheal.Motion.Rig

/-!
# Heaters and motors

The control loop reads the lock once in a scheduling call and then writes one
duty after the other; a thread that starts a motor writes zeros first and then
gives the command. Every read, write and command is one atomic step, and the
threads interleave in any order. What a thread still has to do is the list of
its actions. Bench open-loop mode is off.
-/

set_option linter.unusedSectionVars false

namespace Coatheal.Heater

open Coatheal.Library Coatheal.Motion

/-- The control loop and the threads that serve commands. -/
inductive Thread (κ : Type*) where
  | controlLoop
  | command (thread : κ)
deriving DecidableEq

/-- An atomic step a thread has ahead of it. -/
inductive Action (ι K δ : Type*) where
  | setDuty (heater : ℕ) (duty : K)
  | operate (motor : ι) (operation : Operation K δ)

/-- The motors, the last duty written to each heater, the scheduler, and what each thread still has
to do. -/
structure Plant (ι κ K δ : Type*) where
  rig : Rig ι K δ
  duty : List K
  scheduler : HeaterScheduler K
  pending : Thread κ → List (Action ι K δ)

/-- What can happen next. A scheduling call and the start of a motion are taken by a thread with
nothing left to do; `operate` is any operation that sets no motor going. -/
inductive Event (ι κ K δ : Type*) where
  | schedule (requested : List K) (deprioritizeElectronics : Bool) (dt : K)
  | startMotion (thread : Thread κ) (motor : ι) (operation : Operation K δ)
  | advance (thread : Thread κ)
  | operate (motor : ι) (operation : Operation K δ)

variable {ι κ K δ : Type*} [DecidableEq ι] [DecidableEq κ] [Field K] [LinearOrder K] [FloorRing K]

namespace Plant

/-- The plant before its first step: every heater off, every motor idle. -/
def start (rig : Rig ι K δ) (heaterCount : ℕ) (scheduler : HeaterScheduler K) : Plant ι κ K δ :=
  ⟨rig, List.replicate heaterCount 0, scheduler, fun _ => []⟩

/-- The writes of `InhibitHeatersForMotion`: zero to every heater. -/
def inhibitHeatersForMotion (heaterCount : ℕ) : List (Action ι K δ) :=
  (List.range heaterCount).map fun heater => .setDuty heater 0

/-- The writes of the control loop after a scheduling call. -/
def writeDuties (duties : List K) : List (Action ι K δ) :=
  duties.zipIdx.map fun pair => .setDuty pair.2 pair.1

/-- Carry out one atomic step. -/
def perform (platform : Platform K δ) (plant : Plant ι κ K δ) : Action ι K δ → Plant ι κ K δ
  | .setDuty heater duty => { plant with duty := plant.duty.set heater (clamp duty 0 1) }
  | .operate motor operation => { plant with rig := plant.rig.step platform (motor, operation) }

/-- One event of any thread. -/
def step (platform : Platform K δ) (ranking : Ranking K) (plant : Plant ι κ K δ) :
    Event ι κ K δ → Plant ι κ K δ
  | .schedule requested deprioritizeElectronics dt =>
    if (plant.pending .controlLoop).isEmpty then
      let (duties, scheduler) := plant.scheduler.schedule ranking plant.rig.lock.isActive requested
        deprioritizeElectronics dt
      { plant with
        scheduler := scheduler
        pending := Function.update plant.pending .controlLoop (writeDuties duties) }
    else plant
  | .startMotion thread motor operation =>
    if (plant.pending thread).isEmpty then
      { plant with
        pending := Function.update plant.pending thread
          (inhibitHeatersForMotion plant.duty.length ++ [.operate motor operation]) }
    else plant
  | .advance thread =>
    match plant.pending thread with
    | [] => plant
    | action :: rest =>
      ({ plant with pending := Function.update plant.pending thread rest }).perform platform action
  | .operate motor operation =>
    if operation.isMotion then plant
    else { plant with rig := plant.rig.step platform (motor, operation) }

/-- While a motor holds the lock, the last duty written to every heater is zero. -/
def Interlocked (plant : Plant ι κ K δ) : Prop :=
  plant.rig.lock.isActive = true → ∀ duty ∈ plant.duty, duty = 0

/-- Every heater is off and no thread has a nonzero duty left to write. -/
def Quiet (plant : Plant ι κ K δ) : Prop :=
  (∀ duty ∈ plant.duty, duty = 0) ∧
    ∀ thread heater duty, .setDuty heater duty ∈ plant.pending thread → duty = 0

/-- The event does not carry out a command that takes the lock, unless the plant is quiet. -/
def QuietStart (plant : Plant ι κ K δ) (event : Event ι κ K δ) : Prop :=
  ∀ thread motor operation rest, event = .advance thread →
    plant.pending thread = .operate motor operation :: rest → plant.rig.lock.holder = none →
    operation.Engages (plant.rig.channels motor) → plant.Quiet

/-- While the lock is held the plant is quiet. -/
def Inv (plant : Plant ι κ K δ) : Prop := plant.rig.lock.holder ≠ none → plant.Quiet

/-- A plant with the invariant is interlocked. -/
theorem Inv.interlocked {plant : Plant ι κ K δ} (h : plant.Inv) : plant.Interlocked := by
  intro hactive
  have hheld : plant.rig.lock.holder ≠ none := by
    rw [MotionLock.isActive, Option.isSome_iff_ne_none] at hactive
    exact hactive
  exact (h hheld).1

/-- The writes after a scheduling call under a held lock are zeros. -/
theorem writeDuties_zero {duties : List K} (hzero : ∀ duty ∈ duties, duty = 0) {heater : ℕ} {duty : K}
    (h : (.setDuty heater duty : Action ι K δ) ∈ writeDuties duties) : duty = 0 := by
  obtain ⟨pair, hpair, heq⟩ := List.mem_map.mp h
  cases heq
  exact hzero _ (List.fst_mem_of_mem_zipIdx hpair)

/-- The writes before a motion command are zeros. -/
theorem startMotion_zero {heaterCount : ℕ} {motor : ι} {operation : Operation K δ} {heater : ℕ} {duty : K}
    (h : (.setDuty heater duty : Action ι K δ) ∈
      inhibitHeatersForMotion heaterCount ++ [.operate motor operation]) : duty = 0 := by
  rcases List.mem_append.mp h with hwrite | hlast
  · obtain ⟨index, -, heq⟩ := List.mem_map.mp hwrite
    cases heq
    rfl
  · cases List.mem_singleton.mp hlast

/-- A quiet plant stays quiet when a thread gets a list of zero writes. -/
theorem Quiet.update {plant : Plant ι κ K δ} (h : plant.Quiet) {thread : Thread κ}
    {actions : List (Action ι K δ)}
    (hactions : ∀ heater duty, .setDuty heater duty ∈ actions → duty = 0) :
    ∀ other heater duty, .setDuty heater duty ∈ Function.update plant.pending thread actions other →
      duty = 0 := by
  intro other heater duty hmem
  by_cases hother : other = thread
  · subst hother
    rw [Function.update_self] at hmem
    exact hactions heater duty hmem
  · rw [Function.update_of_ne hother] at hmem
    exact h.2 other heater duty hmem

/-- A free lock is taken only by an operation that engages. -/
theorem rig_step_engages (platform : Platform K δ) {rig : Rig ι K δ} {motor : ι}
    {operation : Operation K δ} (hfree : rig.lock.holder = none)
    (htaken : (rig.step platform (motor, operation)).lock.holder ≠ none) :
    operation.Engages (rig.channels motor) :=
  @Operation.apply_engages ι K δ _ _ _ _ platform motor (rig.locked motor) operation hfree htaken

/-- Every step with a quiet start keeps the invariant. -/
theorem inv_step (platform : Platform K δ) (ranking : Ranking K) (plant : Plant ι κ K δ)
    (event : Event ι κ K δ) (hinv : plant.Inv) (hquiet : plant.QuietStart event) :
    (plant.step platform ranking event).Inv := by
  cases event with
  | schedule requested deprioritizeElectronics dt =>
    simp only [step]
    split
    · intro hheld
      have hactive : plant.rig.lock.isActive = true := by
        rw [MotionLock.isActive, Option.isSome_iff_ne_none]
        exact hheld
      have hzero := (plant.scheduler.schedule_motionActive ranking requested deprioritizeElectronics dt).1
      have hbefore := hinv hheld
      refine ⟨hbefore.1, hbefore.update fun heater duty hmem => ?_⟩
      rw [hactive] at hmem
      exact writeDuties_zero hzero hmem
    · exact hinv
  | startMotion thread motor operation =>
    simp only [step]
    split
    · intro hheld
      have hbefore := hinv hheld
      exact ⟨hbefore.1, hbefore.update fun heater duty hmem => startMotion_zero hmem⟩
    · exact hinv
  | advance thread =>
    simp only [step]
    split
    · exact hinv
    case h_2 action rest hpending =>
      have hrest : ∀ heater duty, .setDuty heater duty ∈ rest →
          .setDuty heater duty ∈ plant.pending thread := by
        intro heater duty hmem
        rw [hpending]
        exact List.mem_cons_of_mem _ hmem
      cases action with
      | setDuty heater duty =>
        intro hheld
        have hbefore := hinv hheld
        have hzero : duty = 0 := hbefore.2 thread heater duty (by rw [hpending]; exact List.mem_cons_self)
        refine ⟨fun value hvalue => ?_, hbefore.update fun other value hmem =>
          hbefore.2 thread other value (hrest other value hmem)⟩
        rcases List.mem_or_eq_of_mem_set hvalue with hold | hnew
        · exact hbefore.1 value hold
        · rw [hnew, hzero]
          simp [clamp]
      | operate motor operation =>
        intro hheld
        have hbefore : plant.Quiet := by
          by_cases hfree : plant.rig.lock.holder = none
          · exact hquiet thread motor operation rest rfl hpending hfree
              (rig_step_engages platform hfree hheld)
          · exact hinv hfree
        exact ⟨hbefore.1, hbefore.update fun heater duty hmem =>
          hbefore.2 thread heater duty (hrest heater duty hmem)⟩
  | operate motor operation =>
    simp only [step]
    split
    · exact hinv
    case isFalse hmotion =>
      intro hheld
      by_cases hfree : plant.rig.lock.holder = none
      · have hyields := @Operation.apply_yields ι K δ _ _ _ _ platform motor (plant.rig.locked motor)
          operation (by simpa using hmotion)
        exact absurd (hyields.holder_eq_none hfree) hheld
      · exact hinv hfree

/-- A plant that has not moved a motor yet keeps the invariant. -/
theorem inv_start {rig : Rig ι K δ} (hfree : rig.lock.holder = none) (heaterCount : ℕ)
    (scheduler : HeaterScheduler K) : (start rig heaterCount scheduler : Plant ι κ K δ).Inv :=
  fun hheld => absurd hfree hheld

/-- In every run in which motors start only in a quiet plant, no state has the lock held while the
last duty written to some heater is nonzero. -/
theorem interlocked_of_quietStart (platform : Platform K δ) (ranking : Ranking K)
    (cfg : ι → ChannelConfig K) (driver : ι → Option δ) (heaterCount : ℕ) (scheduler : HeaterScheduler K)
    (events : List (Event ι κ K δ))
    (hquiet : Meets (step platform ranking) QuietStart
      (start (Rig.start platform cfg driver) heaterCount scheduler) events) :
    Holds (step platform ranking) Interlocked
      (start (Rig.start platform cfg driver) heaterCount scheduler) events :=
  holds_of_meets (inv_step platform ranking) (fun _ h => h.interlocked)
    (inv_start rfl heaterCount scheduler) hquiet

/-- The default power limits: three heaters of five watts, no energy budget. -/
def benchScheduler : HeaterScheduler ℚ := .new ⟨3, 15, 5, 0⟩ none

/-- Two idle motors and six heaters, with one command thread. -/
def benchPlant : Plant (Fin 2) Unit ℚ SimulatedStepperDriver :=
  start (Rig.start SimulatedStepperDriver.platform Rig.benchConfig Rig.benchDriver) 6 benchScheduler

/-- Motor 0 is started between a scheduling call that gives the first heater half duty and the
first write of that call. -/
def startBeforeWrite : List (Event (Fin 2) Unit ℚ SimulatedStepperDriver) :=
  [.operate Rig.benchMotor (.setEnabled true), .schedule [1 / 2, 0, 0, 0, 0, 0] false 1,
    .startMotion (.command ()) Rig.benchMotor (.moveSteps 10)] ++
    List.replicate 7 (.advance (.command ())) ++ [.advance .controlLoop]

/-- The motor starts between the scheduling call and its first write, which then heats while the
motor holds the lock. -/
theorem startBeforeWrite_not_interlocked :
    ¬ Holds (step SimulatedStepperDriver.platform .stable) Interlocked benchPlant startBeforeWrite := by
  intro h
  have hactive : (run (step SimulatedStepperDriver.platform .stable) benchPlant
      startBeforeWrite).rig.lock.isActive = true := by
    decide +kernel
  have hduty : (run (step SimulatedStepperDriver.platform .stable) benchPlant startBeforeWrite).duty =
      [1 / 2, 0, 0, 0, 0, 0] := by
    decide +kernel
  have hzero := h.last hactive (1 / 2) (by rw [hduty]; exact List.mem_cons_self)
  norm_num at hzero

/-- A step of a thread that is not about to give a command starts no motor. -/
private theorem quietStart_advance {plant : Plant ι κ K δ} {thread : Thread κ}
    (h : (plant.pending thread).head?.all fun action =>
      match action with
      | .setDuty _ _ => true
      | .operate _ _ => false) : plant.QuietStart (.advance thread) := by
  rintro other motor operation rest heq hpending - -
  cases heq
  simp [hpending] at h

/-- A plant whose heaters are off and whose threads have at most one command left is quiet. -/
private theorem quiet_of_lists {plant : Plant ι Unit K δ} (hduty : plant.duty.all fun duty => duty = 0)
    (hpending : (plant.pending .controlLoop ++ plant.pending (.command ())).all fun action =>
      match action with
      | .setDuty _ duty => duty = 0
      | .operate _ _ => true) : plant.Quiet := by
  refine ⟨fun duty hmem => by simpa using List.all_eq_true.mp hduty duty hmem, ?_⟩
  intro thread heater duty hmem
  have hall := List.all_eq_true.mp hpending (.setDuty heater duty)
  cases thread with
  | controlLoop => simpa using hall (List.mem_append_left _ hmem)
  | command thread => simpa using hall (List.mem_append_right _ hmem)

/-- One heater's half duty is written before motor 0 is started with the heaters inhibited. -/
def startAfterWrite : List (Event (Fin 2) Unit ℚ SimulatedStepperDriver) :=
  [.operate Rig.benchMotor (.setEnabled true), .schedule [1 / 2] false 1, .advance .controlLoop,
    .startMotion (.command ()) Rig.benchMotor (.moveSteps 10), .advance (.command ()), .advance (.command ())]

/-- The interlock on a run that heats, inhibits and moves. -/
theorem interlocked_startAfterWrite :
    Holds (step SimulatedStepperDriver.platform .stable) Interlocked
      (start (Rig.start SimulatedStepperDriver.platform Rig.benchConfig Rig.benchDriver) 1 benchScheduler)
      startAfterWrite := by
  refine interlocked_of_quietStart _ _ _ _ 1 benchScheduler startAfterWrite ?_
  refine ⟨?_, ?_, quietStart_advance (by decide +kernel), ?_, quietStart_advance (by decide +kernel), ?_,
    trivial⟩
  · rintro thread motor operation rest heq
    cases heq
  · rintro thread motor operation rest heq
    cases heq
  · rintro thread motor operation rest heq
    cases heq
  · rintro thread motor operation rest - - - -
    exact quiet_of_lists (by decide +kernel) (by decide +kernel)

end Plant

end Coatheal.Heater
