import Coatheal.Fallback.PlanStore
import Coatheal.Fallback.Safety

/-!
# What an operation changes of the plan

Whatever of the plan the file shows is changed only together with the dirty
mark, and the plan stays proper under every step of the two threads and under
every restart, whatever was left of the file.
-/

namespace Coatheal.Fallback

open Coatheal.Library

variable {n : ℕ}

namespace FallbackPlanner

/-- From one planner to another the configuration stays, a plan that changed is marked dirty, and
tick counts do not become negative. -/
structure Noted (p q : FallbackPlanner n) : Prop where
  cfg : q.cfg = p.cfg
  changed : q.dirty = true ∨ q.dirty = p.dirty ∧ q.state = p.state ∧ q.motors = p.motors
  counts : (∀ i, 0 ≤ p.ticksSinceStart i) → ∀ i, 0 ≤ q.ticksSinceStart i

/-- A planner that stays as it is. -/
theorem Noted.refl (p : FallbackPlanner n) : Noted p p := ⟨rfl, Or.inr ⟨rfl, rfl, rfl⟩, id⟩

/-- Changes that are marked one after the other. -/
theorem Noted.trans {p q r : FallbackPlanner n} (h : Noted p q) (h' : Noted q r) : Noted p r := by
  refine ⟨h'.cfg.trans h.cfg, ?_, fun hp => h'.counts (h.counts hp)⟩
  rcases h'.changed with hdirty | ⟨hdirty, hstate, hmotors⟩
  · exact Or.inl hdirty
  · rcases h.changed with hbefore | ⟨hbefore, hstate', hmotors'⟩
    · exact Or.inl (hdirty.trans hbefore)
    · exact Or.inr ⟨hdirty.trans hbefore, hstate.trans hstate', hmotors.trans hmotors'⟩

/-- Counts stay natural when one of them becomes another natural number. -/
theorem counts_update {counts : Fin n → ℤ} {i : Fin n} {count : ℤ} (hcount : 0 ≤ count)
    (h : ∀ j, 0 ≤ counts j) (j : Fin n) : 0 ≤ Function.update counts i count j := by
  rw [Function.update_apply]
  split
  · exact hcount
  · exact h j

/-- Tracking one motor marks what it changes. -/
theorem trackOne_noted (input : FallbackTickInput) (p : FallbackPlanner n) (i : Fin n) :
    Noted p (trackOne input p i) := by
  have hcounts : (∀ j, 0 ≤ p.ticksSinceStart j) → ∀ j,
      0 ≤ Function.update p.ticksSinceStart i (p.ticksSinceStart i + 1) j := by
    intro h j
    have hi := h i
    exact counts_update (by omega) h j
  unfold trackOne
  split
  · simp only
    split
    · split
      · exact ⟨rfl, Or.inl rfl, hcounts⟩
      · exact ⟨rfl, Or.inl rfl, hcounts⟩
    · exact ⟨rfl, Or.inr ⟨rfl, rfl, rfl⟩, hcounts⟩
  · exact Noted.refl p

/-- Settling is marked. -/
theorem settle_noted (p : FallbackPlanner n) : Noted p p.settle := by
  unfold settle
  split
  · exact ⟨rfl, Or.inl rfl, id⟩
  · exact Noted.refl p

/-- Tracking marks what it changes. -/
theorem track_noted (p : FallbackPlanner n) (input : FallbackTickInput) : Noted p (p.track input) := by
  have hfold : ∀ (l : List (Fin n)) (q : FallbackPlanner n), Noted q (l.foldl (trackOne input) q) := by
    intro l
    induction l with
    | nil => exact Noted.refl
    | cons i l ih => exact fun q => (trackOne_noted input q i).trans (ih _)
  unfold track
  simp only
  split
  · exact (hfold _ p).trans (settle_noted _)
  · exact hfold _ p

/-- The search for the motor to start marks what it changes. -/
theorem startLoop_noted (input : FallbackTickInput) (deadlinePassed : Bool) (l : List (Fin n))
    (p : FallbackPlanner n) : Noted p (startLoop input deadlinePassed l p).1 := by
  induction l generalizing p with
  | nil => exact settle_noted p
  | cons i l ih =>
    unfold startLoop
    simp only
    split
    · exact ih p
    · split
      · exact ⟨rfl, Or.inl rfl, counts_update le_rfl⟩
      · split
        · have hskip : Noted p { p.setMotorState i .skipped with dirty := true } := ⟨rfl, Or.inl rfl, id⟩
          exact hskip.trans (ih _)
        · exact Noted.refl p

/-- A tick marks what it changes. -/
theorem tick_noted (p : FallbackPlanner n) (input : FallbackTickInput) : Noted p (p.tick input).1 := by
  have hclock : Noted (p.track input) ((p.track input).startDeadline input.now) := by
    unfold startDeadline
    split
    · exact Noted.refl _
    · exact ⟨rfl, Or.inr ⟨rfl, rfl, rfl⟩, id⟩
  unfold tick
  simp only
  split
  · exact track_noted p input
  · split
    · exact track_noted p input
    · split
      · exact (track_noted p input).trans hclock
      · exact ((track_noted p input).trans hclock).trans (startLoop_noted input _ _ _)

/-- The answer to a start marks what it changes. -/
theorem reportStartResult_noted (p : FallbackPlanner n) (motorId : ℤ) (accepted retryLater : Bool)
    (error : String) : Noted p (p.reportStartResult motorId accepted retryLater error) := by
  unfold reportStartResult
  split
  · exact Noted.refl p
  · split
    · exact Noted.refl p
    · split
      · exact ⟨rfl, Or.inl rfl, counts_update le_rfl⟩
      · exact ⟨rfl, Or.inl rfl, id⟩

/-- The file's text is that of the configuration, the state and the motors. -/
theorem serialize_congr {p q : FallbackPlanner n} (hcfg : q.cfg = p.cfg) (hstate : q.state = p.state)
    (hmotors : q.motors = p.motors) : q.serialize = p.serialize := by
  have hlines : ∀ i, q.motorLine i = p.motorLine i := fun i => by
    unfold motorLine
    rw [hmotors]
  unfold serialize headLines armed
  rw [hcfg, hstate, funext hlines]

/-- A plan that was not marked is the same text. -/
theorem Noted.serialize {p q : FallbackPlanner n} (h : Noted p q) (hdirty : q.dirty = false) :
    p.dirty = false ∧ q.serialize = p.serialize := by
  rcases h.changed with hmark | ⟨hsame, hstate, hmotors⟩
  · rw [hdirty] at hmark
    cases hmark
  · exact ⟨hsame ▸ hdirty, serialize_congr h.cfg hstate hmotors⟩

/-- A reset plan is well formed. -/
theorem WellFormed.resetToNone (p : FallbackPlanner n) : p.resetToNone.WellFormed := by
  refine ⟨fun i => ?_, fun h => absurd rfl h⟩
  by_cases hconfigured : (p.motors i).configured = true
  · simp [FallbackPlanner.resetToNone, hconfigured]
  · simp [FallbackPlanner.resetToNone, hconfigured]

/-- Every motor keeps its plan at a tick. -/
theorem tick_configured (p : FallbackPlanner n) (input : FallbackTickInput) (i : Fin n) :
    ((p.tick input).1.motors i).configured = (p.motors i).configured := by
  have hspec := tick_spec p input
  by_cases hstarted : ∃ a, (p.tick input).2 = some a ∧ a.motorId = i
  · obtain ⟨a, ha, rfl⟩ := hstarted
    rw [hspec.started a ha]
  · exact (Session.moves_facts (hspec.motors i fun a ha heq => hstarted ⟨a, ha, heq⟩)).1

/-- A tick keeps the plan well formed. -/
theorem WellFormed.tick {p : FallbackPlanner n} (hp : p.WellFormed) (input : FallbackTickInput) :
    (p.tick input).1.WellFormed := by
  have hspec := tick_spec p input
  refine hp.of_motors (tick_configured p input) (fun i => ?_) fun hstate => ?_
  · by_cases hstarted : ∃ a, (p.tick input).2 = some a ∧ a.motorId = i
    · obtain ⟨a, ha, rfl⟩ := hstarted
      rw [hspec.started a ha, (tick_startable ha).pending]
      simp
    · exact (Session.moves_facts (hspec.motors i fun a ha heq => hstarted ⟨a, ha, heq⟩)).2.1
  · refine anyConfigured_iff.mp (hp.some_motor fun hnone => ?_)
    rcases hspec.state with heq | ⟨harmed, -⟩
    · exact hstate (heq.trans hnone)
    · rw [armed_iff, hnone] at harmed
      rcases harmed with h | h <;> cases h

/-- The answer to a start of a motor with a plan keeps every motor's plan. -/
theorem reportStartResult_configured (p : FallbackPlanner n) (m : Fin n) (accepted retryLater : Bool)
    (error : String) (i : Fin n) :
    ((p.reportStartResult (m : ℤ) accepted retryLater error).motors i).configured =
      (p.motors i).configured := by
  have hset : ∀ state, ((p.setMotorState m state).motors i).configured = (p.motors i).configured := by
    intro state
    rw [setMotorState_motors]
    split
    · rename_i heq
      rw [heq]
    · rfl
  unfold reportStartResult
  rw [index_coe]
  simp only
  split
  · rfl
  · split
    · exact hset _
    · exact hset _

/-- The answer to a start of a motor with a plan keeps the plan well formed. -/
theorem WellFormed.reportStartResult {p : FallbackPlanner n} (hp : p.WellFormed) {m : Fin n}
    (hm : (p.motors m).configured = true) (accepted retryLater : Bool) (error : String) :
    (p.reportStartResult (m : ℤ) accepted retryLater error).WellFormed := by
  have hset : ∀ state, state ≠ .unconfigured → ∀ i,
      ((p.setMotorState m state).motors i).state ≠ .unconfigured ↔ (p.motors i).state ≠ .unconfigured := by
    intro state hstate i
    rw [setMotorState_motors]
    split
    · rename_i heq
      rw [heq]
      exact iff_of_true hstate ((hp.motor_state m).mp hm)
    · exact Iff.rfl
  refine hp.of_motors (reportStartResult_configured p m accepted retryLater error) (fun i => ?_)
    fun _ => ⟨m, hm⟩
  unfold FallbackPlanner.reportStartResult
  rw [index_coe]
  simp only
  split
  · exact Iff.rfl
  · split
    · exact hset .pending (by decide) i
    · exact hset .failed (by decide) i

/-- Arming keeps the plan well formed. -/
theorem WellFormed.arm {p q : FallbackPlanner n} (hp : p.WellFormed) (h : p.arm = .ok q) : q.WellFormed := by
  obtain ⟨hconfigured, -, rfl⟩ := arm_ok h
  exact ⟨hp.motor_state, fun _ => hconfigured⟩

/-- Loading a motor's plan keeps the plan well formed. -/
theorem WellFormed.setMotorPlan {p q : FallbackPlanner n} (hp : p.WellFormed) {motorId : ℤ}
    {targetUsteps : Int64} {holdS speedHz : ℚ}
    (h : p.setMotorPlan motorId targetUsteps holdS speedHz = .ok q) : q.WellFormed := by
  cases hindex : (FallbackPlanner.index motorId : Option (Fin n)) with
  | none =>
    unfold FallbackPlanner.setMotorPlan at h
    rw [hindex] at h
    cases h
  | some m =>
    obtain ⟨-, base, hbase, rfl⟩ := setMotorPlan_ok hindex h
    have hwell : base.WellFormed := by
      rcases hbase with ⟨rfl, -⟩ | ⟨rfl, -⟩
      · exact hp
      · exact WellFormed.resetToNone p
    refine ⟨fun i => ?_, fun _ => anyConfigured_iff.mpr ⟨m, by simp⟩⟩
    by_cases hi : i = m
    · simp [hi]
    · simpa [hi] using hwell.motor_state i

/-- A motor with a plan still has one when another plan was loaded. -/
theorem setMotorPlan_configured {p q : FallbackPlanner n} {motorId : ℤ} {targetUsteps : Int64}
    {holdS speedHz : ℚ} (h : p.setMotorPlan motorId targetUsteps holdS speedHz = .ok q) {i : Fin n}
    (hi : (p.motors i).configured = true) : (q.motors i).configured = true := by
  cases hindex : (FallbackPlanner.index motorId : Option (Fin n)) with
  | none =>
    unfold FallbackPlanner.setMotorPlan at h
    rw [hindex] at h
    cases h
  | some m =>
    obtain ⟨-, base, hbase, rfl⟩ := setMotorPlan_ok hindex h
    have hsame : (base.motors i).configured = true := by
      rcases hbase with ⟨rfl, -⟩ | ⟨rfl, -⟩ <;> exact hi
    by_cases him : i = m
    · simp [him]
    · simpa [him] using hsame

/-- A plan that was read has a state for every motor it has a bend for. -/
theorem readSpec_wellFormed {value : List Char} {plan : FallbackMotorPlan} (h : readSpec value = some plan) :
    plan.configured = true ∧ plan.state ≠ .unconfigured := by
  unfold readSpec at h
  split at h
  · simp only [Option.bind_eq_bind, Option.bind_eq_some_iff] at h
    obtain ⟨_, -, _, -, _, -, state, -, hplan⟩ := h
    split at hplan
    · cases hplan
    · rename_i hstate
      rw [← Option.some.inj hplan]
      exact ⟨rfl, hstate⟩
  · cases h

/-- Every motor has either been read or nothing is known of it. -/
def Reading.Fit (reading : Reading n) : Prop :=
  ∀ i, reading.motors i = {} ∨ (reading.motors i).configured = true ∧ (reading.motors i).state ≠ .unconfigured

/-- Reading a line keeps the motors fit. -/
theorem readLine_fit {before after : Reading n} {raw : List Char} (hfit : before.Fit)
    (h : readLine before raw = some after) : after.Fit := by
  unfold readLine at h
  simp only at h
  split at h
  · exact Option.some.inj h ▸ hfit
  · split at h
    · cases h
    · split at h
      · obtain ⟨_, -, rfl⟩ := Option.map_eq_some_iff.mp h
        exact hfit
      · split at h
        · simp only [Option.bind_eq_bind, Option.bind_eq_some_iff] at h
          obtain ⟨_, -, j, -, plan, hplan, heq⟩ := h
          obtain ⟨hconfigured, hstate⟩ := readSpec_wellFormed hplan
          rw [← Option.some.inj heq]
          intro i
          by_cases hi : i = j
          · simp [hi, hconfigured, hstate]
          · simpa [hi] using hfit i
        · exact Option.some.inj h ▸ hfit

/-- Reading lines keeps the motors fit. -/
theorem foldlM_readLine_fit {lines : List (List Char)} {before after : Reading n} (hfit : before.Fit)
    (h : lines.foldlM readLine before = some after) : after.Fit := by
  induction lines generalizing before with
  | nil => exact Option.some.inj h ▸ hfit
  | cons line lines ih =>
    rw [List.foldlM_cons] at h
    obtain ⟨next, hnext, hrest⟩ := Option.bind_eq_some_iff.mp h
    exact ih (readLine_fit hfit hnext) hrest

/-- A plan as it can be in memory: it is well formed, nothing is kept of a motor without a bend, and
tick counts are natural. -/
structure Proper (p : FallbackPlanner n) : Prop where
  wellFormed : p.WellFormed
  blank : ∀ i, (p.motors i).configured = false → p.motors i = {}
  counts : ∀ i, 0 ≤ p.ticksSinceStart i

/-- The plan is proper when there is none. -/
theorem Proper.cleared (p : FallbackPlanner n) : p.clearMotors.resetToNone.Proper :=
  ⟨WellFormed.resetToNone _, fun _ _ => rfl, fun _ => le_rfl⟩

/-- A reset plan is proper. -/
theorem Proper.resetToNone {p : FallbackPlanner n} (hp : p.Proper) : p.resetToNone.Proper := by
  refine ⟨WellFormed.resetToNone p, fun i hi => ?_, fun _ => le_rfl⟩
  have hconfigured : (p.motors i).configured = false := hi
  simp [FallbackPlanner.resetToNone, hp.blank i hconfigured]

/-- A tick keeps the plan proper. -/
theorem Proper.tick {p : FallbackPlanner n} (hp : p.Proper) (input : FallbackTickInput) :
    (p.tick input).1.Proper := by
  refine ⟨hp.wellFormed.tick input, fun i hi => ?_, (tick_noted p input).counts hp.counts⟩
  rw [tick_configured] at hi
  have hspec := tick_spec p input
  have hstate : (p.motors i).state = .unconfigured := by
    rw [hp.blank i hi]
  have hother : ∀ a, (p.tick input).2 = some a → a.motorId ≠ i := by
    rintro a ha rfl
    rw [(tick_startable ha).pending] at hstate
    cases hstate
  rcases hspec.motors i hother with (heq | ⟨hrun, -⟩) | ⟨-, hpending, -⟩
  · rw [heq]
    exact hp.blank i hi
  · rw [hrun] at hstate
    cases hstate
  · rw [hpending] at hstate
    cases hstate

/-- The answer to a start of a motor with a plan keeps the plan proper. -/
theorem Proper.reportStartResult {p : FallbackPlanner n} (hp : p.Proper) {m : Fin n}
    (hm : (p.motors m).configured = true) (accepted retryLater : Bool) (error : String) :
    (p.reportStartResult (m : ℤ) accepted retryLater error).Proper := by
  refine ⟨hp.wellFormed.reportStartResult hm accepted retryLater error, fun i hi => ?_,
    (reportStartResult_noted p (m : ℤ) accepted retryLater error).counts hp.counts⟩
  rw [reportStartResult_configured] at hi
  have hne : i ≠ m := by
    rintro rfl
    rw [hm] at hi
    cases hi
  have hset : ∀ state, (p.setMotorState m state).motors i = p.motors i := fun state =>
    (setMotorState_motors p m state i).trans (if_neg hne)
  unfold FallbackPlanner.reportStartResult
  rw [index_coe]
  simp only
  split
  · exact hp.blank i hi
  · split
    · exact (hset .pending).trans (hp.blank i hi)
    · exact (hset .failed).trans (hp.blank i hi)

/-- Arming keeps the plan proper. -/
theorem Proper.arm {p q : FallbackPlanner n} (hp : p.Proper) (h : p.arm = .ok q) : q.Proper := by
  have hwell := hp.wellFormed.arm h
  obtain ⟨-, -, rfl⟩ := arm_ok h
  exact ⟨hwell, hp.blank, hp.counts⟩

/-- Disarming keeps the plan proper. -/
theorem Proper.disarm {p : FallbackPlanner n} (hp : p.Proper) : p.disarm.Proper :=
  ⟨⟨(WellFormed.resetToNone p).motor_state, fun h => absurd rfl h⟩, hp.resetToNone.blank, fun _ => le_rfl⟩

/-- Loading a motor's plan keeps the plan proper. -/
theorem Proper.setMotorPlan {p q : FallbackPlanner n} (hp : p.Proper) {motorId : ℤ}
    {targetUsteps : Int64} {holdS speedHz : ℚ}
    (h : p.setMotorPlan motorId targetUsteps holdS speedHz = .ok q) : q.Proper := by
  have hwell := hp.wellFormed.setMotorPlan h
  cases hindex : (FallbackPlanner.index motorId : Option (Fin n)) with
  | none =>
    unfold FallbackPlanner.setMotorPlan at h
    rw [hindex] at h
    cases h
  | some m =>
    obtain ⟨-, base, hbase, rfl⟩ := setMotorPlan_ok hindex h
    have hproper : base.Proper := by
      rcases hbase with ⟨rfl, -⟩ | ⟨rfl, -⟩
      · exact hp
      · exact hp.resetToNone
    refine ⟨hwell, fun i hi => ?_, counts_update le_rfl hproper.counts⟩
    by_cases him : i = m
    · simp [him] at hi
    · simp only [Function.update_of_ne him] at hi ⊢
      exact hproper.blank i hi

/-- Whatever a text holds, what is read from it is proper. -/
theorem Proper.deserialize (p : FallbackPlanner n) (text : List Char) : (p.deserialize text).1.Proper := by
  have hempty : Reading.Fit ({} : Reading n) := fun _ => Or.inl rfl
  unfold FallbackPlanner.deserialize
  simp only
  split
  · exact Proper.cleared p
  · rename_i reading hread
    split
    · exact Proper.cleared p
    · split
      · exact Proper.cleared p
      · rename_i hsome
        have hfit := foldlM_readLine_fit hempty hread
        refine ⟨⟨fun i => ?_, fun hstate => ?_⟩, fun i hi => ?_, fun _ => le_rfl⟩
        · show (reading.motors i).configured = true ↔ (reading.motors i).state ≠ .unconfigured
          rcases hfit i with heq | ⟨hconfigured, hstate⟩
          · rw [heq]
            exact iff_of_false (by decide) (by decide)
          · exact iff_of_true hconfigured hstate
        · simpa [anyConfigured] using fun hno => hsome ⟨hstate, hno⟩
        · rcases hfit i with heq | ⟨hconfigured, -⟩
          · exact heq
          · have hno : (reading.motors i).configured = false := hi
            rw [hconfigured] at hno
            cases hno

/-- Whatever the file holds, what is loaded from it is proper. -/
theorem Proper.loadFrom (p : FallbackPlanner n) (file : Option (List Char)) : (p.loadFrom file).Proper := by
  cases file with
  | none => exact Proper.cleared p
  | some text => exact Proper.deserialize p text

end FallbackPlanner

/-- The start the control loop still owes the planner an answer for. -/
def ControlPhase.owed : ControlPhase n → Option (FallbackAction n)
  | .starting action => some action
  | .started action _ _ _ => some action
  | _ => none

namespace PlanStore

/-- The plan is proper and the motor of a start that is still to be answered has a plan. -/
structure Sound (s : PlanStore n) : Prop where
  proper : s.planner.Proper
  owed : ∀ action, s.control.owed = some action → (s.planner.motors action.motorId).configured = true

/-- Whatever the file holds, the onboard starts soundly. -/
theorem sound_boot (cfg : FallbackPlannerConfig) (addressable : n ≤ 2 ^ 63) (file : Option (List Char)) :
    (boot cfg addressable file).Sound :=
  ⟨FallbackPlanner.Proper.loadFrom _ file, fun _ h => nomatch h⟩

/-- A step of saving leaves the plan itself alone. -/
theorem sound_of_same {s t : PlanStore n} (hs : s.Sound) (hstate : t.planner.state = s.planner.state)
    (hmotors : t.planner.motors = s.planner.motors)
    (hticks : t.planner.ticksSinceStart = s.planner.ticksSinceStart)
    (howed : ∀ action, t.control.owed = some action → s.control.owed = some action) : t.Sound := by
  have hwell : t.planner.WellFormed := by
    refine hs.proper.wellFormed.of_motors (fun i => by rw [hmotors]) (fun i => by rw [hmotors]) fun h => ?_
    exact FallbackPlanner.anyConfigured_iff.mp (hs.proper.wellFormed.some_motor (hstate ▸ h))
  refine ⟨⟨hwell, ?_, ?_⟩, fun action haction => ?_⟩
  · rw [hmotors]
    exact hs.proper.blank
  · rw [hticks]
    exact hs.proper.counts
  · rw [hmotors]
    exact hs.owed action (howed action haction)

/-- Putting a thread at another point of its save leaves the planner and owes nothing new. -/
theorem setSave_same (s : PlanStore n) (save : Save) (thread : PlanThread) :
    (s.setSave save thread).planner = s.planner ∧ (s.setSave save thread).file = s.file ∧
      ∀ action, (s.setSave save thread).control.owed = some action → s.control.owed = some action := by
  cases thread with
  | control => exact ⟨rfl, rfl, fun _ h => nomatch h⟩
  | command =>
    unfold setSave
    dsimp only
    split
    · exact ⟨rfl, rfl, fun _ h => h⟩
    · exact ⟨rfl, rfl, fun _ h => h⟩

/-- The end of a save leaves the planner and owes nothing new. -/
theorem finish_same (s : PlanStore n) (thread : PlanThread) :
    (s.finish thread).planner = s.planner ∧ (s.finish thread).file = s.file ∧
      ∀ action, (s.finish thread).control.owed = some action → s.control.owed = some action := by
  cases thread with
  | control => exact ⟨rfl, rfl, fun _ h => nomatch h⟩
  | command => exact ⟨rfl, rfl, fun _ h => h⟩

/-- A change by the command thread is sound when the planner it makes is, and keeps the motors'
plans. -/
theorem sound_edit {s : PlanStore n} (hs : s.Sound) (request : PlanRequest)
    {reply : Except String (FallbackPlanner n)}
    (hreply : ∀ planner, reply = .ok planner → planner.Proper ∧
      ∀ i, (s.planner.motors i).configured = true → (planner.motors i).configured = true) :
    (s.edit request reply).Sound := by
  cases reply with
  | error text => exact hs
  | ok planner =>
    obtain ⟨hproper, hkeep⟩ := hreply planner rfl
    exact ⟨hproper, fun action haction => hkeep _ (hs.owed action haction)⟩

/-- Every step is sound. -/
theorem sound_step (s : PlanStore n) (event : StoreEvent) (hs : s.Sound) : (s.step event).Sound := by
  cases event with
  | tick input =>
    unfold step
    dsimp only
    split
    · refine ⟨hs.proper.tick input, fun action haction => ?_⟩
      have hsome : (s.planner.tick input).2 = some action := by
        unfold tick at haction
        dsimp only at haction
        split at haction
        · rename_i a ha
          rw [ha]
          exact haction
        · cases haction
      show ((s.planner.tick input).1.motors action.motorId).configured = true
      rw [FallbackPlanner.tick_configured]
      exact (FallbackPlanner.tick_startable hsome).configured
    · exact hs
  | move accepted retryLater error =>
    unfold step
    dsimp only
    split
    · rename_i action hcontrol
      refine sound_of_same hs rfl rfl rfl fun a ha => ?_
      rw [hcontrol]
      exact ha
    · exact hs
  | report =>
    unfold step
    dsimp only
    split
    · rename_i action accepted retryLater error hcontrol
      have hm := hs.owed action (by rw [hcontrol]; rfl)
      exact ⟨hs.proper.reportStartResult hm accepted retryLater error, fun _ h => nomatch h⟩
    · exact hs
  | plan motorId targetUsteps holdS speedHz =>
    unfold step
    dsimp only
    split
    · exact sound_edit hs _ fun planner h => ⟨hs.proper.setMotorPlan h,
        fun _ hi => FallbackPlanner.setMotorPlan_configured h hi⟩
    · exact hs
  | arm =>
    unfold step
    dsimp only
    split
    · refine sound_edit hs _ fun planner h => ⟨hs.proper.arm h, fun i hi => ?_⟩
      obtain ⟨-, -, rfl⟩ := FallbackPlanner.arm_ok h
      exact hi
    · exact hs
  | disarm =>
    unfold step
    dsimp only
    split
    · refine sound_edit hs _ fun planner h => ?_
      rw [← Except.ok.inj h]
      exact ⟨hs.proper.disarm, fun i hi => hi⟩
    · exact hs
  | take thread =>
    unfold step
    dsimp only
    split
    · unfold take
      split
      · obtain ⟨hplanner, -, howed⟩ := setSave_same
          { s with planner := s.planner.takeDirty.2 } (.opening s.planner.serialize) thread
        exact sound_of_same hs (by rw [hplanner]; rfl) (by rw [hplanner]; rfl) (by rw [hplanner]; rfl) howed
      · obtain ⟨hplanner, -, howed⟩ := finish_same s thread
        exact sound_of_same hs (by rw [hplanner]) (by rw [hplanner]) (by rw [hplanner]) howed
    · exact hs
  | openFile thread opens =>
    unfold step
    dsimp only
    split
    · rename_i text _
      unfold openFile
      split
      · obtain ⟨hplanner, -, howed⟩ := setSave_same { s with file := some [] } (.writing text) thread
        exact sound_of_same hs (by rw [hplanner]) (by rw [hplanner]) (by rw [hplanner]) howed
      · obtain ⟨hplanner, -, howed⟩ := finish_same s thread
        exact sound_of_same hs (by rw [hplanner]) (by rw [hplanner]) (by rw [hplanner]) howed
    · exact hs
  | writeFile thread count =>
    unfold step
    dsimp only
    split
    · rename_i text _
      obtain ⟨hplanner, -, howed⟩ := finish_same
        { s with file := some (overlay (kept text count) s.file) } thread
      exact sound_of_same hs (by rw [writeFile, hplanner]) (by rw [writeFile, hplanner])
        (by rw [writeFile, hplanner]) howed
    · exact hs
  | restart keptByControl keptByCommand => exact sound_boot _ _ _

/-- Every plan the onboard can have is proper. -/
theorem proper_of_reaches {cfg : FallbackPlannerConfig} {p : FallbackPlanner n} (h : Reaches cfg p) :
    p.Proper := by
  obtain ⟨events, hevents⟩ := h
  have hsound : (run step (boot cfg p.addressable none) events).Sound :=
    (holds_of_step sound_step (fun _ hs => hs) (sound_boot cfg p.addressable none) events).last
  exact hevents ▸ hsound.proper

end PlanStore

end Coatheal.Fallback
