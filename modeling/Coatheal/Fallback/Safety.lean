import Coatheal.Fallback.Session

/-!
# At most one bend per arming

The invariant says, for every motor, what its log permits: a pending motor of
an armed plan may start, a running one has not ended since it was renewed, and
a plan that is neither armed nor finished has been reset. A start refused for a
busy lock after the plan was disarmed arms the plan again, which is the one way
out of the invariant.
-/

namespace Coatheal.Fallback

open Coatheal.Library

variable {n : ℕ}

/-- A renewal stays in the log. -/
theorem growing_renewed (m : Fin n) : Growing (Renewed m) := by
  rintro entry since (h | ⟨newer, older, rfl, h⟩)
  · exact Or.inl (List.mem_cons_of_mem _ h)
  · exact Or.inr ⟨entry :: newer, older, rfl, h⟩

/-- What excuses another start stays in the log. -/
theorem growing_putOff (m : Fin n) :
    Growing fun since : List (Note n) => .retryLater m ∈ since ∨ Renewed m since := by
  rintro entry since (h | h)
  · exact Or.inl (List.mem_cons_of_mem _ h)
  · exact Or.inr (growing_renewed m entry since h)

/-- Arming after a reset renews every motor. -/
theorem renewed_arm (m : Fin n) {since : List (Note n)} (h : HasReset since) :
    Renewed m (.arm :: since) :=
  Or.inr ⟨[], since, rfl, h⟩

/-- Notes that neither start nor end the motor leave its permission. -/
theorem MayStart.append {m : Fin n} {log notes : List (Note n)} (h : MayStart m log)
    (hstart : .start m ∉ notes) (hend : .ended m ∉ notes) : MayStart m (notes ++ log) :=
  ⟨h.afterStart.append (growing_putOff m) hstart, h.afterEnd.append (growing_renewed m) hend⟩

/-- The notes of ended bends are those of the motors that ended just now. -/
theorem mem_endedNotes {p q : FallbackPlanner n} {note : Note n} :
    note ∈ endedNotes p q ↔ ∃ i, note = .ended i ∧ (q.motors i).state.hasEnded = true ∧
      (p.motors i).state.hasEnded = false := by
  simp only [endedNotes, List.mem_map, List.mem_filter, List.mem_finRange, true_and,
    Bool.and_eq_true, Bool.not_eq_true']
  constructor
  · rintro ⟨i, hended, rfl⟩
    exact ⟨i, rfl, hended⟩
  · rintro ⟨i, rfl, hended⟩
    exact ⟨i, hended, rfl⟩

/-- No bend started in the notes of ended bends. -/
theorem start_notMem_endedNotes (p q : FallbackPlanner n) (m : Fin n) :
    .start m ∉ endedNotes p q := by
  intro h
  obtain ⟨i, heq, -⟩ := mem_endedNotes.mp h
  cases heq

/-- A motor whose bend has not ended is not in the notes of ended bends. -/
theorem ended_notMem_endedNotes {p q : FallbackPlanner n} {m : Fin n}
    (h : (q.motors m).state.hasEnded = false) : .ended m ∉ endedNotes p q := by
  intro hmem
  obtain ⟨i, heq, hended, -⟩ := mem_endedNotes.mp hmem
  cases heq
  rw [h] at hended
  cases hended

/-- Where no bend ended, there are no notes. -/
theorem endedNotes_eq_nil {p q : FallbackPlanner n}
    (h : ∀ i, (q.motors i).state.hasEnded = true → (p.motors i).state.hasEnded = true) :
    endedNotes p q = [] := by
  refine List.eq_nil_iff_forall_not_mem.mpr fun note hmem => ?_
  obtain ⟨i, -, hended, hnot⟩ := mem_endedNotes.mp hmem
  rw [h i hended] at hnot
  cases hnot

/-- Notes of ended bends need no permission. -/
theorem endedNotes_allowed {p q : FallbackPlanner n} :
    ∀ note ∈ endedNotes p q, ∀ before, Note.Allowed note before := by
  intro note hmem before
  obtain ⟨i, rfl, -⟩ := mem_endedNotes.mp hmem
  trivial

namespace FallbackPlanner

/-- Motors that keep their plans, with states fit for them, keep the planner well formed. -/
theorem WellFormed.of_motors {p q : FallbackPlanner n} (hp : p.WellFormed)
    (hconfigured : ∀ i, (q.motors i).configured = (p.motors i).configured)
    (hstate : ∀ i, (q.motors i).state ≠ .unconfigured ↔ (p.motors i).state ≠ .unconfigured)
    (hplan : q.state ≠ .none → ∃ i, (p.motors i).configured = true) : q.WellFormed := by
  refine ⟨fun i => ?_, fun hq => ?_⟩
  · rw [hconfigured, hstate]
    exact hp.motor_state i
  · obtain ⟨i, hi⟩ := hplan hq
    exact anyConfigured_iff.mpr ⟨i, (hconfigured i).trans hi⟩

/-- A motor that is pending, running, done, skipped or failed has a plan. -/
theorem WellFormed.configured {p : FallbackPlanner n} (hp : p.WellFormed) {i : Fin n}
    {state : FallbackMotorState} (h : (p.motors i).state = state) (hne : state ≠ .unconfigured) :
    (p.motors i).configured = true :=
  (hp.motor_state i).mpr (h ▸ hne)

/-- A motor's plan keeps its state through the plan file. -/
theorem WellFormed.rereadPlan_state {p : FallbackPlanner n} (hp : p.WellFormed) (i : Fin n) :
    (rereadPlan (p.motors i)).configured = (p.motors i).configured ∧
      (rereadPlan (p.motors i)).state = (p.motors i).state := by
  unfold rereadPlan
  by_cases h : (p.motors i).configured = true
  · rw [if_pos h]
    exact ⟨rfl, rfl⟩
  · rw [if_neg h]
    have hstate : (p.motors i).state = .unconfigured := by
      by_contra hne
      exact h ((hp.motor_state i).mpr hne)
    exact ⟨(Bool.eq_false_iff.mpr h).symm, hstate.symm⟩

end FallbackPlanner

namespace Session

/-- The invariant of a session. -/
structure Inv (s : Session n) : Prop where
  wellFormed : s.planner.WellFormed
  answerable : ∀ m, s.awaiting = some m → (s.planner.motors m).configured = true ∧
    ((s.planner.motors m).state = .pending ∨ (s.planner.motors m).state = .running)
  resting : s.planner.state = .none → s.planner.deadlineStarted = false ∧
    ∀ m, ((s.planner.motors m).state = .pending ∨ (s.planner.motors m).state = .unconfigured) ∧
      ((s.planner.motors m).configured = true →
        AfterEach HasReset (.start m) s.log ∧ AfterEach HasReset (.ended m) s.log)
  waiting : s.planner.armed = true → ∀ m, (s.planner.motors m).state = .pending →
    MayStart m s.log
  bending : ∀ m, (s.planner.motors m).state = .running → AfterEach (Renewed m) (.ended m) s.log
  clock : s.windowTicks.head? =
    if s.planner.deadlineStarted then some s.planner.deadlineStart else none
  lawful : Lawful Note.Allowed s.log

/-- A planner with no plan is in the invariant, whatever happened before. -/
theorem inv_new (cfg : FallbackPlannerConfig) (addressable : n ≤ 2 ^ 63) {log : List (Note n)}
    (hlog : Lawful Note.Allowed log) : Inv ⟨.new cfg addressable, none, log, []⟩ where
  wellFormed := ⟨fun _ => by simp [FallbackPlanner.new], fun h => absurd rfl h⟩
  answerable := nofun
  resting := fun _ => ⟨rfl, fun _ => ⟨Or.inr rfl, nofun⟩⟩
  waiting := nofun
  bending := nofun
  clock := rfl
  lawful := hlog

/-- The plan after a reset rests, whatever the log says, when the newest note is a reset. -/
theorem inv_reset {s : Session n} {planner : FallbackPlanner n} {note : Note n}
    (hs : s.Inv) (hplan : planner.state = .none) (hclock : planner.deadlineStarted = false)
    (hmotors : ∀ m, if (planner.motors m).configured then (planner.motors m).state = .pending
      else (planner.motors m).state = .unconfigured)
    (hawaiting : ∀ m, s.awaiting = some m → (planner.motors m).configured = true)
    (hreset : ∀ since, HasReset (note :: since)) (hnote : ∀ m, note ≠ .start m ∧ note ≠ .ended m) :
    Inv { s with planner := planner, log := note :: s.log, windowTicks := [] } where
  wellFormed := by
    refine ⟨fun i => ?_, fun h => absurd hplan h⟩
    have hi := hmotors i
    by_cases hconfigured : (planner.motors i).configured = true
    · rw [if_pos hconfigured] at hi
      simp [hconfigured, hi]
    · rw [if_neg hconfigured] at hi
      simp [hconfigured, hi]
  answerable := by
    intro m hm
    have hi := hmotors m
    rw [if_pos (hawaiting m hm)] at hi
    exact ⟨hawaiting m hm, Or.inl hi⟩
  resting := by
    refine fun _ => ⟨hclock, fun m => ⟨?_, fun _ => ?_⟩⟩
    · have hi := hmotors m
      split at hi
      · exact Or.inl hi
      · exact Or.inr hi
    · have hafter : ∀ mark, note ≠ mark → AfterEach HasReset mark (note :: s.log) := by
        intro mark hne
        exact afterEach_cons.mpr ⟨fun heq => absurd heq hne, fun since _ _ => hreset since⟩
      exact ⟨hafter _ (hnote m).1, hafter _ (hnote m).2⟩
  waiting := by
    intro harmed
    rw [FallbackPlanner.armed_iff, hplan] at harmed
    rcases harmed with h | h <;> cases h
  bending := by
    intro m hrun
    have hi := hmotors m
    split at hi <;> rw [hrun] at hi <;> cases hi
  clock := by rw [hclock]; rfl
  lawful := by
    refine ⟨?_, hs.lawful⟩
    cases note with
    | start m => exact absurd rfl (hnote m).1
    | _ => trivial

/-- Disarming keeps the invariant. -/
theorem inv_disarm {s : Session n} (hs : s.Inv) : (s.step .disarm).Inv := by
  refine inv_reset hs rfl rfl (fun m => ?_) (fun m hm => (hs.answerable m hm).1)
    (fun since => Or.inl List.mem_cons_self) (fun m => ⟨(by simp), (by simp)⟩)
  simp only [FallbackPlanner.disarm, FallbackPlanner.resetToNone]
  split <;> rfl

/-- Arming keeps the invariant. -/
theorem inv_arm {s : Session n} (hs : s.Inv) : (s.step .arm).Inv := by
  simp only [step]
  split
  · rename_i planner harm
    obtain ⟨hconfigured, hstate, rfl⟩ := FallbackPlanner.arm_ok harm
    refine ⟨⟨hs.wellFormed.motor_state, fun _ => hconfigured⟩, hs.answerable, (by simp),
      fun _ m hpending => ?_, fun m hrun => (hs.bending m hrun).cons (growing_renewed m) (by simp),
      hs.clock, ⟨trivial, hs.lawful⟩⟩
    rcases hstate with hnone | harmed
    · -- A plan at rest has been reset since every start and every end.
      obtain ⟨-, hrest⟩ := hs.resting hnone
      obtain ⟨hstart, hend⟩ := (hrest m).2 (hs.wellFormed.configured hpending (by simp))
      refine ⟨afterEach_cons.mpr ⟨(by simp), hstart.mono fun since h => ?_⟩,
        afterEach_cons.mpr ⟨(by simp), hend.mono fun since h => renewed_arm m h⟩⟩
      exact Or.inr (renewed_arm m h)
    · have hmay := hs.waiting (FallbackPlanner.armed_iff.mpr (Or.inl harmed)) m hpending
      exact ⟨hmay.afterStart.cons (growing_putOff m) (by simp),
        hmay.afterEnd.cons (growing_renewed m) (by simp)⟩
  · exact hs

/-- Loading a motor's plan keeps the invariant. -/
theorem inv_setMotorPlan {s : Session n} (hs : s.Inv) (motorId : ℤ) (targetUsteps : Int64)
    (holdS speedHz : ℚ) : (s.step (.setMotorPlan motorId targetUsteps holdS speedHz)).Inv := by
  simp only [step]
  split
  · rename_i k planner hid hset
    obtain ⟨-, base, hbase, rfl⟩ := FallbackPlanner.setMotorPlan_ok hid hset
    have hloaded : ∀ m, Function.update base.motors k
        (⟨true, targetUsteps, holdS, speedHz, .pending⟩ : FallbackMotorPlan) m =
          if m = k then ⟨true, targetUsteps, holdS, speedHz, .pending⟩ else base.motors m :=
      fun m => Function.update_apply _ _ _ _
    by_cases harmed : s.planner.state = .armed
    · -- An armed plan stays armed; only this motor is renewed.
      have hsame : base = s.planner := by
        rcases hbase with ⟨heq, -⟩ | ⟨-, hdone | hfailed⟩
        · exact heq
        · rw [harmed] at hdone
          cases hdone
        · rw [harmed] at hfailed
          cases hfailed
      subst hsame
      have hstate : ({ s.planner with
          motors := Function.update s.planner.motors k ⟨true, targetUsteps, holdS, speedHz, .pending⟩
          ticksSinceStart := Function.update s.planner.ticksSinceStart k 0
          dirty := true } : FallbackPlanner n).state ≠ .none := by
        rw [show _ = s.planner.state from rfl, harmed]
        decide
      rw [if_neg hstate, decide_eq_true harmed]
      refine ⟨⟨fun i => ?_, fun _ => ?_⟩, fun m hm => ?_, fun h => absurd h hstate,
        fun _ m hpending => ?_, fun m hrun => ?_, hs.clock, ⟨trivial, hs.lawful⟩⟩
      · simp only [hloaded]
        split
        · simp
        · exact hs.wellFormed.motor_state i
      · exact FallbackPlanner.anyConfigured_iff.mpr ⟨k, by simp⟩
      · simp only [hloaded]
        split
        · exact ⟨rfl, Or.inl rfl⟩
        · exact hs.answerable m hm
      · by_cases hm : m = k
        · subst hm
          have hrenewed : ∀ since, Renewed m (.plan m true :: since) :=
            fun since => Or.inl List.mem_cons_self
          exact ⟨afterEach_cons.mpr ⟨(by simp), fun since _ _ => Or.inr (hrenewed since)⟩,
            afterEach_cons.mpr ⟨(by simp), fun since _ _ => hrenewed since⟩⟩
        · simp only [hloaded, if_neg hm] at hpending
          have hmay := hs.waiting (FallbackPlanner.armed_iff.mpr (Or.inl harmed)) m hpending
          exact ⟨hmay.afterStart.cons (growing_putOff m) (by simp),
            hmay.afterEnd.cons (growing_renewed m) (by simp)⟩
      · simp only [hloaded] at hrun
        split at hrun
        · cases hrun
        · exact (hs.bending m hrun).cons (growing_renewed m) (by simp)
    · -- A plan at rest or finished is at rest afterwards, with every motor pending again.
      have hbaseNone : base.state = .none ∧ base.deadlineStarted = false ∧
          (∀ m, if (base.motors m).configured then (base.motors m).state = .pending
            else (base.motors m).state = .unconfigured) ∧
          ∀ m, (base.motors m).configured = (s.planner.motors m).configured := by
        rcases hbase with ⟨rfl, hnone | h⟩ | ⟨rfl, -⟩
        · obtain ⟨hclock, hrest⟩ := hs.resting hnone
          refine ⟨hnone, hclock, fun m => ?_, fun _ => rfl⟩
          rcases (hrest m).1 with hstate | hstate
          · rw [if_pos (hs.wellFormed.configured hstate (by simp))]
            exact hstate
          · rw [if_neg (by rw [hs.wellFormed.motor_state, hstate]; simp)]
            exact hstate
        · exact absurd h harmed
        · refine ⟨rfl, rfl, fun m => ?_, fun _ => rfl⟩
          simp only [FallbackPlanner.resetToNone]
          split <;> rfl
      obtain ⟨hnone, hclock, hmotors, hconf⟩ := hbaseNone
      rw [if_pos hnone, decide_eq_false harmed]
      refine inv_reset hs hnone hclock (fun m => ?_) (fun m hm => ?_)
        (fun since => Or.inr ⟨k, List.mem_cons_self⟩) (fun m => ⟨(by simp), (by simp)⟩)
      · simp only [hloaded]
        by_cases hm : m = k
        · simp [hm]
        · simpa only [if_neg hm] using hmotors m
      · simp only [hloaded]
        split
        · rfl
        · rw [hconf]
          exact (hs.answerable m hm).1
  · exact hs

/-- Reporting a start that was put off, with the plan armed or running, keeps the invariant. -/
theorem inv_report_retryLater {s : Session n} (hs : s.Inv) {m : Fin n} (hm : s.awaiting = some m)
    (harmed : s.planner.armed = true) (error : String) :
    (s.step (.report false true error)).Inv := by
  obtain ⟨hconfigured, hstate⟩ := hs.answerable m hm
  have hclear : (s.planner.motors m).state.hasEnded = false := by
    rcases hstate with h | h <;> rw [h] <;> rfl
  set planner := s.planner.reportStartResult (m : ℤ) false true error with hplanner
  have hmotors : ∀ i, planner.motors i =
      if i = m then { s.planner.motors m with state := .pending } else s.planner.motors i := by
    intro i
    rw [hplanner, FallbackPlanner.reportStartResult, FallbackPlanner.index_coe]
    exact FallbackPlanner.setMotorState_motors _ _ _ _
  have hplan : planner.state = .running ∨ planner.state = .armed := by
    rw [hplanner, FallbackPlanner.reportStartResult, FallbackPlanner.index_coe]
    simp only [Bool.false_eq_true, if_false, if_true]
    split
    · exact Or.inl rfl
    · exact Or.inr rfl
  have hclock : planner.deadlineStarted = s.planner.deadlineStarted ∧
      planner.deadlineStart = s.planner.deadlineStart := by
    rw [hplanner, FallbackPlanner.reportStartResult, FallbackPlanner.index_coe]
    exact ⟨rfl, rfl⟩
  have hnotes : endedNotes s.planner planner = [] := by
    refine endedNotes_eq_nil fun i hi => ?_
    rw [hmotors] at hi
    split at hi
    · cases hi
    · exact hi
  have hstep : s.step (.report false true error) =
      { s with planner := planner, awaiting := none, log := .retryLater m :: s.log } := by
    simp only [step, hm, ← hplanner, hnotes]
    rfl
  rw [hstep]
  refine ⟨hs.wellFormed.of_motors (fun i => ?_) (fun i => ?_) fun _ => ⟨m, hconfigured⟩, (by simp),
    fun h => ?_, fun _ i hpending => ?_, fun i hrun => ?_, ?_, ⟨trivial, hs.lawful⟩⟩
  · rw [hmotors]
    split
    · rename_i heq
      rw [heq]
    · rfl
  · rw [hmotors]
    split
    · rename_i heq
      rw [heq]
      exact ⟨fun _ => (hs.wellFormed.motor_state m).mp hconfigured, fun _ => (by simp)⟩
    · exact Iff.rfl
  · rcases hplan with heq | heq <;> rw [heq] at h <;> cases h
  · by_cases hi : i = m
    · subst hi
      have hend : AfterEach (Renewed i) (.ended i) s.log := by
        rcases hstate with h | h
        · exact (hs.waiting harmed i h).afterEnd
        · exact hs.bending i h
      exact ⟨afterEach_cons.mpr ⟨(by simp), fun since _ _ => Or.inl List.mem_cons_self⟩,
        hend.cons (growing_renewed i) (by simp)⟩
    · rw [hmotors, if_neg hi] at hpending
      have hmay := hs.waiting harmed i hpending
      exact ⟨hmay.afterStart.cons (growing_putOff i) (by simp),
        hmay.afterEnd.cons (growing_renewed i) (by simp)⟩
  · rw [hmotors] at hrun
    split at hrun
    · cases hrun
    · exact (hs.bending i hrun).cons (growing_renewed i) (by simp)
  · rw [hclock.1, hclock.2]
    exact hs.clock

/-- Reporting a refused start keeps the invariant: the motor and the plan have failed. -/
theorem inv_report_refused {s : Session n} (hs : s.Inv) {m : Fin n} (hm : s.awaiting = some m)
    (error : String) : (s.step (.report false false error)).Inv := by
  obtain ⟨hconfigured, hstate⟩ := hs.answerable m hm
  set planner := s.planner.reportStartResult (m : ℤ) false false error with hplanner
  have hmotors : ∀ i, planner.motors i =
      if i = m then { s.planner.motors m with state := .failed } else s.planner.motors i := by
    intro i
    rw [hplanner, FallbackPlanner.reportStartResult, FallbackPlanner.index_coe]
    exact FallbackPlanner.setMotorState_motors _ _ _ _
  have hplan : planner.state = .failed := by
    rw [hplanner, FallbackPlanner.reportStartResult, FallbackPlanner.index_coe]
    rfl
  have hclock : planner.deadlineStarted = s.planner.deadlineStarted ∧
      planner.deadlineStart = s.planner.deadlineStart := by
    rw [hplanner, FallbackPlanner.reportStartResult, FallbackPlanner.index_coe]
    exact ⟨rfl, rfl⟩
  have hstep : s.step (.report false false error) =
      { s with
        planner := planner
        awaiting := none
        log := endedNotes s.planner planner ++ s.log } := by
    simp only [step, hm, ← hplanner]
    rfl
  rw [hstep]
  refine ⟨hs.wellFormed.of_motors (fun i => ?_) (fun i => ?_) fun _ => ⟨m, hconfigured⟩, (by simp),
    fun h => ?_, fun h => ?_, fun i hrun => ?_, ?_, hs.lawful.append endedNotes_allowed⟩
  · rw [hmotors]
    split
    · rename_i heq
      rw [heq]
    · rfl
  · rw [hmotors]
    split
    · rename_i heq
      rw [heq]
      exact ⟨fun _ => (hs.wellFormed.motor_state m).mp hconfigured, fun _ => (by simp)⟩
    · exact Iff.rfl
  · rw [hplan] at h
    cases h
  · rw [FallbackPlanner.armed_iff, hplan] at h
    rcases h with h | h <;> cases h
  · have hnotEnded : (planner.motors i).state.hasEnded = false := by
      rw [hrun]
      rfl
    rw [hmotors] at hrun
    split at hrun
    · cases hrun
    · exact (hs.bending i hrun).append (growing_renewed i) (ended_notMem_endedNotes hnotEnded)
  · rw [hclock.1, hclock.2]
    exact hs.clock

/-- Every report that is not late keeps the invariant. -/
theorem inv_report {s : Session n} (hs : s.Inv) (accepted retryLater : Bool) (error : String)
    (hok : s.NoLateRetry (.report accepted retryLater error)) :
    (s.step (.report accepted retryLater error)).Inv := by
  cases hm : s.awaiting with
  | none =>
    have hstep : s.step (.report accepted retryLater error) = s := by
      simp only [step, hm]
    rw [hstep]
    exact hs
  | some m =>
    have hawaiting : s.awaiting.isSome = true := by rw [hm]; rfl
    cases accepted with
    | true =>
      have hsame : s.planner.reportStartResult (m : ℤ) true retryLater error = s.planner := by
        rw [FallbackPlanner.reportStartResult, FallbackPlanner.index_coe]
        rfl
      have hstep : s.step (.report true retryLater error) = { s with awaiting := none } := by
        simp only [step, hm, hsame, endedNotes_eq_nil fun i (h : _ = true) => h]
        rfl
      rw [hstep]
      exact ⟨hs.wellFormed, (by simp), hs.resting, hs.waiting, hs.bending, hs.clock, hs.lawful⟩
    | false =>
      cases retryLater with
      | true => exact inv_report_retryLater hs hm (hok hawaiting rfl rfl) error
      | false => exact inv_report_refused hs hm error

/-- A tick that moves a motor without starting it keeps its plan, and neither makes it pending nor
sets it running. -/
theorem moves_facts {before after : FallbackMotorPlan} (h : FallbackPlanner.Moves before after) :
    after.configured = before.configured ∧
      (after.state ≠ .unconfigured ↔ before.state ≠ .unconfigured) ∧
      (after.state = .pending → before.state = .pending) ∧
      (after.state = .running → before.state = .running) := by
  rcases h with (rfl | ⟨hrun, rfl | rfl⟩) | ⟨-, hpending, rfl⟩
  · exact ⟨rfl, Iff.rfl, id, id⟩
  all_goals simp_all

/-- What a tick the caller is free to take makes of a session. -/
theorem step_tick {s : Session n} (input : FallbackTickInput) (h : s.awaiting.isSome = false) :
    s.step (.tick input) =
      { planner := (s.planner.tick input).1
        awaiting := (s.planner.tick input).2.map FallbackAction.motorId
        log := startNotes (s.planner.tick input).2 ++
          (endedNotes s.planner (s.planner.tick input).1 ++ s.log)
        windowTicks :=
          if (s.planner.track input).armed && input.windowPhase then s.windowTicks ++ [input.now]
          else s.windowTicks } := by
  simp only [step, h, Bool.false_eq_true, if_false]

/-- A tick of a plan at rest changes nothing the invariant speaks of. -/
theorem inv_tick_resting {s : Session n} (hs : s.Inv) (input : FallbackTickInput)
    (hawaiting : s.awaiting.isSome = false) (hnone : s.planner.state = .none) :
    (s.step (.tick input)).Inv := by
  obtain ⟨hmotors, -, hstarted, hstart, hstate⟩ := FallbackPlanner.track_spec s.planner input
  have hplan : (s.planner.track input).state = .none := by
    rcases hstate with heq | ⟨hrun, -⟩
    · exact heq.trans hnone
    · rw [hnone] at hrun
      cases hrun
  have harmed : (s.planner.track input).armed = false := by
    refine Bool.eq_false_iff.mpr fun h => ?_
    rw [FallbackPlanner.armed_iff, hplan] at h
    rcases h with h | h <;> cases h
  have hsame : (s.planner.track input).motors = s.planner.motors := by
    funext i
    rcases hmotors i with heq | ⟨hrun, -⟩
    · exact heq
    · rcases ((hs.resting hnone).2 i).1 with h | h <;> rw [h] at hrun <;> cases hrun
  have htick : s.planner.tick input = (s.planner.track input, none) := by
    unfold FallbackPlanner.tick
    exact if_pos harmed
  have hnotes : endedNotes s.planner (s.planner.track input) = [] :=
    endedNotes_eq_nil fun i h => by rwa [hsame] at h
  rw [step_tick input hawaiting, htick, hnotes, harmed]
  refine ⟨hs.wellFormed.of_motors (fun i => by rw [hsame]) (fun i => by rw [hsame])
      fun h => absurd hplan h, (by simp), fun _ => ⟨hstarted.trans (hs.resting hnone).1, ?_⟩, ?_, ?_, ?_,
    hs.lawful⟩
  · rw [hsame]
    exact (hs.resting hnone).2
  · intro h
    rw [harmed] at h
    cases h
  · rw [hsame]
    exact hs.bending
  · rw [hstarted, hstart]
    exact hs.clock

/-- A tick keeps the invariant. -/
theorem inv_tick {s : Session n} (hs : s.Inv) (input : FallbackTickInput) :
    (s.step (.tick input)).Inv := by
  by_cases hawaiting : s.awaiting.isSome = true
  · have hstep : s.step (.tick input) = s := by
      simp only [step, hawaiting, if_true]
    rw [hstep]
    exact hs
  have hidle : s.awaiting.isSome = false := Bool.eq_false_iff.mpr hawaiting
  by_cases hbusy : s.planner.state = .none
  · exact inv_tick_resting hs input hidle hbusy
  have hspec := FallbackPlanner.tick_spec s.planner input
  have hstartable : ∀ action, (s.planner.tick input).2 = some action →
      FallbackPlanner.Startable s.planner input (s.planner.tick input).1 action :=
    fun action h => FallbackPlanner.tick_startable h
  rw [step_tick input hidle]
  generalize (s.planner.tick input).1 = planner at *
  generalize (s.planner.tick input).2 = action at *
  have harmedBefore : planner.armed = true → s.planner.armed = true := by
    intro h
    rcases hspec.state with heq | ⟨hbefore, -⟩
    · rw [FallbackPlanner.armed_iff, heq] at h
      exact FallbackPlanner.armed_iff.mpr h
    · exact hbefore
  have hmay : ∀ a, action = some a → MayStart a.motorId s.log := by
    intro a ha
    have hstart := hstartable a ha
    have harmed : s.planner.armed = true := by
      refine harmedBefore (FallbackPlanner.armed_iff.mpr (Or.inr hstart.running))
    exact hs.waiting harmed a.motorId hstart.pending
  -- The motor that is started, and every other one.
  have hmotor : ∀ i, (∃ a, action = some a ∧ a.motorId = i) ∨
      FallbackPlanner.Moves (s.planner.motors i) (planner.motors i) := by
    intro i
    by_cases h : ∃ a, action = some a ∧ a.motorId = i
    · exact Or.inl h
    · exact Or.inr (hspec.motors i fun a ha heq => h ⟨a, ha, heq⟩)
  have hstartNote : ∀ i, (∀ a, action = some a → a.motorId ≠ i) → .start i ∉ startNotes action := by
    intro i hother hmem
    cases action with
    | none => cases hmem
    | some a =>
      cases List.mem_singleton.mp hmem
      exact hother a rfl rfl
  have hendedNote : ∀ i, .ended i ∉ startNotes action := by
    intro i hmem
    cases action with
    | none => cases hmem
    | some a => cases List.mem_singleton.mp hmem
  have hconfigured : ∀ i, (planner.motors i).configured = (s.planner.motors i).configured := by
    intro i
    rcases hmotor i with ⟨a, ha, rfl⟩ | hmoves
    · rw [hspec.started a ha]
    · exact (moves_facts hmoves).1
  refine ⟨hs.wellFormed.of_motors hconfigured (fun i => ?_) (fun h => ?_), fun m hm => ?_,
    fun hnone => ?_, fun harmed i hpending => ?_, fun i hrun => ?_, ?_, ?_⟩
  · rcases hmotor i with ⟨a, ha, rfl⟩ | hmoves
    · rw [hspec.started a ha, (hstartable a ha).pending]
      simp
    · exact (moves_facts hmoves).2.1
  · exact FallbackPlanner.anyConfigured_iff.mp (hs.wellFormed.some_motor hbusy)
  · obtain ⟨a, ha, rfl⟩ := Option.map_eq_some_iff.mp hm
    rw [hspec.started a ha]
    exact ⟨(hstartable a ha).configured, Or.inr rfl⟩
  · rcases hspec.state with heq | ⟨-, hne⟩
    · exact absurd (heq ▸ hnone) hbusy
    · exact absurd hnone hne
  · rcases hmotor i with ⟨a, ha, rfl⟩ | hmoves
    · rw [hspec.started a ha] at hpending
      cases hpending
    · have hclear : (planner.motors i).state.hasEnded = false := by
        rw [hpending]
        rfl
      have hnot : ∀ a, action = some a → a.motorId ≠ i := by
        rintro a ha rfl
        rw [hspec.started a ha] at hpending
        cases hpending
      have hold := hs.waiting (harmedBefore harmed) i ((moves_facts hmoves).2.2.1 hpending)
      exact (hold.append (start_notMem_endedNotes _ _ i) (ended_notMem_endedNotes hclear)).append
        (hstartNote i hnot) (hendedNote i)
  · have hclear : (planner.motors i).state.hasEnded = false := by
      rw [hrun]
      rfl
    have hold : AfterEach (Renewed i) (.ended i) s.log := by
      rcases hmotor i with ⟨a, ha, rfl⟩ | hmoves
      · exact (hmay a ha).afterEnd
      · exact hs.bending i ((moves_facts hmoves).2.2.2 hrun)
    exact (hold.append (growing_renewed i) (ended_notMem_endedNotes hclear)).append
      (growing_renewed i) (hendedNote i)
  · -- The first in-window tick is the one the clock started with.
    have hclock := hs.clock
    by_cases hopen : ((s.planner.track input).armed && input.windowPhase) = true
    · have hstarted : planner.deadlineStarted = true := by
        rw [hspec.deadlineStarted, hopen, Bool.or_true]
      rw [if_pos hopen, if_pos hstarted, hspec.deadlineStart hstarted,
        FallbackPlanner.deadlineFrom, List.head?_append, hclock]
      split <;> rfl
    · have hstarted : planner.deadlineStarted = s.planner.deadlineStarted := by
        rw [hspec.deadlineStarted, Bool.eq_false_iff.mpr hopen, Bool.or_false]
      rw [if_neg hopen, hclock, hstarted]
      by_cases h : s.planner.deadlineStarted = true
      · rw [if_pos h, if_pos h, hspec.deadlineStart (hstarted.trans h),
          FallbackPlanner.deadlineFrom, if_pos h]
      · rw [if_neg h, if_neg h]
  · have hbase : Lawful Note.Allowed (endedNotes s.planner planner ++ s.log) :=
      hs.lawful.append endedNotes_allowed
    cases haction : action with
    | none => exact hbase
    | some a =>
      have hold := hmay a haction
      have hclear : (planner.motors a.motorId).state.hasEnded = false := by
        rw [hspec.started a haction]
        rfl
      exact ⟨hold.append (start_notMem_endedNotes _ _ _) (ended_notMem_endedNotes hclear), hbase⟩

/-- A restart keeps the invariant: the planner has the plan it had, or none. -/
theorem inv_restart {s : Session n} (hs : s.Inv) (cfg : FallbackPlannerConfig) :
    (s.step (.restart cfg)).Inv := by
  simp only [step]
  rw [FallbackPlanner.deserialize_serialize hs.wellFormed]
  split
  · have hsame := hs.wellFormed.rereadPlan_state
    refine ⟨hs.wellFormed.of_motors (fun i => (hsame i).1) (fun i => by rw [(hsame i).2])
        fun h => FallbackPlanner.anyConfigured_iff.mp (hs.wellFormed.some_motor h),
      (by simp), fun hnone => ⟨rfl, fun m => ?_⟩, fun harmed m hpending => ?_, fun m hrun => ?_, rfl,
      hs.lawful⟩
    · simp only [(hsame m).1, (hsame m).2]
      exact (hs.resting hnone).2 m
    · exact hs.waiting harmed m ((hsame m).2 ▸ hpending)
    · exact hs.bending m ((hsame m).2 ▸ hrun)
  · have hcleared : (FallbackPlanner.new cfg s.planner.addressable).clearMotors.resetToNone =
        .new cfg s.planner.addressable := rfl
    simp only [hcleared]
    exact inv_new cfg _ hs.lawful

/-- Every event that is no late report keeps the invariant. -/
theorem inv_step (s : Session n) (event : Event) (hs : s.Inv) (hok : s.NoLateRetry event) :
    (s.step event).Inv := by
  cases event with
  | tick input => exact inv_tick hs input
  | report accepted retryLater error => exact inv_report hs accepted retryLater error hok
  | setMotorPlan motorId targetUsteps holdS speedHz =>
    exact inv_setMotorPlan hs motorId targetUsteps holdS speedHz
  | arm => exact inv_arm hs
  | disarm => exact inv_disarm hs
  | restart cfg => exact inv_restart hs cfg

/-- In the invariant, a tick starts a bend only under the guard. -/
theorem Inv.startGuard {s : Session n} (hs : s.Inv) {input : FallbackTickInput}
    {action : FallbackAction n} (h : (s.planner.tick input).2 = some action) :
    StartGuard s input action := by
  have hstart := FallbackPlanner.tick_startable h
  have hspec := FallbackPlanner.tick_spec s.planner input
  have hwindow := hstart.window
  simp only [FallbackTickInput.windowPhase, Bool.and_eq_true, Bool.or_eq_true,
    decide_eq_true_eq] at hwindow
  have hready := hstart.ready
  simp only [FallbackMotorInput.ready, Bool.and_eq_true] at hready
  have harmed : s.planner.state = .armed ∨ s.planner.state = .running := by
    rcases (FallbackPlanner.track_spec s.planner input).2.2.2.2 with heq | ⟨hrun, -⟩
    · rw [← heq]
      exact FallbackPlanner.armed_iff.mp hstart.armed
    · exact Or.inr hrun
  refine ⟨hwindow.1, hwindow.2, harmed, hstart.configured, hstart.pending, hstart.bend,
    hready.1.1, hready.1.2, hready.2, hstart.noneRunning, fun j hj hconfigured => ?_, ?_⟩
  · -- A lower motor with a plan is neither pending nor running nor unconfigured.
    obtain ⟨hrunning, hpending⟩ := hstart.lower j hj
    have hother : ∀ a, (s.planner.tick input).2 = some a → a.motorId ≠ j := by
      rintro a ha rfl
      rw [h] at ha
      cases ha
      exact absurd hj (Fin.lt_irrefl _)
    obtain ⟨hsame, hstate, -, -⟩ := moves_facts (hspec.motors j hother)
    have hne := hstate.mpr ((hs.wellFormed.motor_state j).mp hconfigured)
    rcases hpending with hno | hpending
    · rw [hsame, hconfigured] at hno
      cases hno
    · cases hj' : ((s.planner.tick input).1.motors j).state <;> simp_all [FallbackMotorState.isSettled]
  · rcases hstart.warm with hwarm | hwarm
    · refine Or.inl ?_
      unfold FallbackMotorInput.windowOk at hwarm
      split at hwarm
      · rename_i temp htemp
        simp only [Bool.and_eq_true, decide_eq_true_eq] at hwarm
        exact ⟨temp, htemp, hwarm⟩
      · cases hwarm
    · refine Or.inr ⟨s.planner.deadlineFrom input.now, ?_, ?_⟩
      · rw [List.head?_append, hs.clock, FallbackPlanner.deadlineFrom]
        split <;> rfl
      · simpa only [FallbackPlannerConfig.deadlineReached, decide_eq_true_eq] using hwarm

/-- The invariant makes the session safe. -/
theorem Inv.safe {s : Session n} (hs : s.Inv) : s.Safe :=
  ⟨hs.lawful, fun _ _ h => hs.startGuard h⟩

/-- Every run without late reports is safe throughout: each start comes under the guard, and no motor
is started again unless it was put off or may bend once more. -/
theorem safe_of_noLateRetry (cfg : FallbackPlannerConfig) (addressable : n ≤ 2 ^ 63)
    (events : List Event) (h : Meets step NoLateRetry (new cfg addressable) events) :
    Holds step Safe (new cfg addressable) events :=
  holds_of_meets inv_step (fun _ => Inv.safe) (inv_new cfg addressable trivial) h

/-- Two motors at rest, ready and warm, in float with the link lost. -/
def readyToBend : FallbackTickInput where
  fallbackActive := true
  phase := .float
  motors := List.replicate 2 { enabled := true, zeroed := true, healthy := true, groupTempC := some 0 }

/-- The start of motor 0 meets a busy lock once and is tried again. -/
def retriedStart : List Event :=
  [.setMotorPlan 0 400 60 0, .arm, .tick readyToBend,
    .report false true "motion lock held by another motor", .tick readyToBend, .report true false ""]

/-- A run with a start that is put off while the plan is armed is safe. -/
theorem safe_of_noLateRetry_retriedStart :
    Holds step Safe (@new 2 {} (by decide)) retriedStart :=
  safe_of_noLateRetry {} (by decide) retriedStart
    ⟨trivial, trivial, trivial, fun _ _ _ => by decide +kernel, trivial, (fun _ h => nomatch h), trivial⟩

/-- Motor 0 is done and the start of motor 1 meets a busy lock, but the operator disarms the plan
before the caller reports it. -/
def lateRetry : List Event :=
  [.setMotorPlan 0 400 60 0, .setMotorPlan 1 400 60 0, .arm, .tick readyToBend, .report true false "",
    .tick readyToBend, .disarm, .report false true "motion lock held by another motor",
    .tick readyToBend]

/-- After the late report motor 0, which was done, is started again without a new arming. -/
theorem lateRetry_not_safe : ¬ Holds step Safe (@new 2 {} (by decide)) lateRetry := by
  intro h
  have hlog : (run step (@new 2 {} (by decide)) lateRetry).log =
      [.start 0, .retryLater 1, .disarm, .start 1, .ended 0, .start 0, .arm, .plan 1 false,
        .plan 0 false] := by
    decide +kernel
  have hlawful := h.last.lawful
  rw [hlog] at hlawful
  obtain ⟨⟨hstart, -⟩, -⟩ := hlawful
  have hsince : ∀ since : List (Note 2), since = [.retryLater 1, .disarm, .start 1, .ended 0] →
      ¬ (.retryLater 0 ∈ since ∨ Renewed 0 since) := by
    rintro since hsince (hput | hplan | ⟨newer, older, harm, -⟩)
    · rw [hsince] at hput
      exact absurd hput (by decide)
    · rw [hsince] at hplan
      exact absurd hplan (by decide)
    · have hmem : .arm ∈ since := harm ▸ by simp
      rw [hsince] at hmem
      exact absurd hmem (by decide)
  exact hsince _ rfl (hstart _ [.arm, .plan 1 false, .plan 0 false] rfl)

end Session

end Coatheal.Fallback
