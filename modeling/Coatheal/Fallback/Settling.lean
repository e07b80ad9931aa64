import Coatheal.Fallback.PlanRoundTrip

/-!
# How a bend of the plan settles

A tick settles a running bend when its motor neither moves nor holds: it has failed
if a safety abort ended the motion, and is done otherwise. Nothing else makes a bend
done, and only a tick makes one run.
-/

namespace Coatheal.Fallback

namespace FallbackPlanner

variable {n : ℕ}

/-- From one planner to another every bend stays as it is, or it is neither running nor done. -/
def Recedes (p q : FallbackPlanner n) : Prop :=
  ∀ i, q.motors i = p.motors i ∨ (q.motors i).state ≠ .running ∧ (q.motors i).state ≠ .done

/-- A bend that is put in another state recedes, unless it runs or is done. -/
theorem recedes_setMotorState (p : FallbackPlanner n) (i : Fin n) {state : FallbackMotorState}
    (hrunning : state ≠ .running) (hdone : state ≠ .done) : p.Recedes (p.setMotorState i state) := by
  intro j
  rw [setMotorState_motors]
  split
  · exact Or.inr ⟨hrunning, hdone⟩
  · exact Or.inl rfl

/-- After a reset no bend runs or is done. -/
theorem recedes_resetToNone (p : FallbackPlanner n) : p.Recedes p.resetToNone := by
  intro i
  refine Or.inr ?_
  unfold resetToNone
  dsimp only
  split
  · exact ⟨by decide, by decide⟩
  · exact ⟨by decide, by decide⟩

/-- A motor whose plan is loaded is pending; the others stay as they are or are reset. -/
theorem recedes_setMotorPlan {p q : FallbackPlanner n} {motorId : ℤ} {targetUsteps : Int64} {holdS speedHz : ℚ}
    (h : p.setMotorPlan motorId targetUsteps holdS speedHz = .ok q) : p.Recedes q := by
  cases hindex : (index motorId : Option (Fin n)) with
  | none =>
    unfold setMotorPlan at h
    rw [hindex] at h
    cases h
  | some m =>
    obtain ⟨-, base, hbase, rfl⟩ := setMotorPlan_ok hindex h
    have hrecedes : p.Recedes base := by
      rcases hbase with ⟨rfl, -⟩ | ⟨rfl, -⟩
      · exact fun _ => Or.inl rfl
      · exact recedes_resetToNone p
    intro i
    by_cases him : i = m
    · subst him
      refine Or.inr ?_
      dsimp only
      rw [Function.update_self]
      exact ⟨by simp, by simp⟩
    · dsimp only
      rw [Function.update_of_ne him]
      exact hrecedes i

/-- The answer to a start leaves the bends as they are, or puts a refused one back or ends it. -/
theorem recedes_reportStartResult (p : FallbackPlanner n) (m : Fin n) (accepted retryLater : Bool)
    (error : String) : p.Recedes (p.reportStartResult (m.val : ℤ) accepted retryLater error) ∧
      (accepted = false → ((p.reportStartResult (m.val : ℤ) accepted retryLater error).motors m).state ≠ .running) := by
  have hset (state : FallbackMotorState) (h : state ≠ .running) :
      ((p.setMotorState m state).motors m).state ≠ .running := by
    rw [setMotorState_motors, if_pos rfl]
    exact h
  unfold reportStartResult
  rw [index_coe]
  dsimp only
  split
  case isTrue haccepted =>
    refine ⟨fun _ => Or.inl rfl, fun hrefused => ?_⟩
    exact absurd (hrefused.symm.trans haccepted) Bool.false_ne_true
  split
  · exact ⟨recedes_setMotorState p m (by decide) (by decide), fun _ => hset .pending (by decide)⟩
  · exact ⟨recedes_setMotorState p m (by decide) (by decide), fun _ => hset .failed (by decide)⟩

/-- The search for the next motor skips pending bends and starts one, and changes no others. -/
theorem startLoop_motors (input : FallbackTickInput) (deadlinePassed : Bool) (l : List (Fin n))
    (p : FallbackPlanner n) (i : Fin n) :
    let after := (startLoop input deadlinePassed l p).1.motors i
    after = p.motors i ∨ (p.motors i).state = .pending ∧ (after.state = .skipped ∨ after.state = .running) := by
  induction l generalizing p with
  | nil =>
    unfold startLoop
    rcases settle_cases p with heq | ⟨state, -, heq⟩
    · exact Or.inl (by rw [heq])
    · exact Or.inl (by rw [heq])
  | cons j l ih =>
    unfold startLoop
    dsimp only at ih ⊢
    split
    · exact ih p
    case isFalse hstartable =>
      have hpending : (p.motors j).state = .pending := by
        by_contra hother
        exact hstartable (Or.inr hother)
      split
      · unfold begin
        dsimp only
        rw [setMotorState_motors]
        split
        case isTrue hi => exact Or.inr ⟨hi ▸ hpending, Or.inr rfl⟩
        · exact Or.inl rfl
      split
      · have hlater := ih { p.setMotorState j .skipped with dirty := true }
        dsimp only at hlater
        rw [setMotorState_motors] at hlater
        split at hlater
        case isTrue hi =>
          rcases hlater with heq | ⟨hskipped, -⟩
          · exact Or.inr ⟨hi ▸ hpending, Or.inl (by rw [heq])⟩
          · cases hskipped
        · exact hlater
      · exact Or.inl rfl

/-- What a tick makes of a bend: what tracking makes of it, or a pending one is skipped or started. -/
theorem tick_motors {p : FallbackPlanner n} (input : FallbackTickInput) (hcounts : ∀ i, 0 ≤ p.ticksSinceStart i)
    (i : Fin n) :
    let after := (p.tick input).1.motors i
    after = trackedPlan (input.motor i) (p.motors i) ∨
      (p.motors i).state = .pending ∧ (after.state = .skipped ∨ after.state = .running) := by
  have htrack := track_motors input hcounts i
  have hdeadline := (startDeadline_spec (p.track input) input.now).1
  unfold tick
  dsimp only
  split
  · exact Or.inl htrack
  split
  · exact Or.inl htrack
  split
  · exact Or.inl (by rw [hdeadline, htrack])
  · have hloop := startLoop_motors input (((p.track input).startDeadline input.now).deadlineStarted &&
      ((p.track input).startDeadline input.now).cfg.deadlineReached
        ((p.track input).startDeadline input.now).deadlineStart input.now)
      (List.finRange n) ((p.track input).startDeadline input.now) i
    dsimp only at hloop
    rw [hdeadline, htrack] at hloop
    refine hloop.imp_right fun ⟨hpending, hafter⟩ => ⟨?_, hafter⟩
    unfold trackedPlan at hpending
    split at hpending
    · dsimp only at hpending
      split at hpending
      · cases hpending
      · cases hpending
    · exact hpending

/-- A bend is done after a tick only if it was done, or its motor rests without an abort. -/
theorem tick_done {p : FallbackPlanner n} {input : FallbackTickInput} (hcounts : ∀ i, 0 ≤ p.ticksSinceStart i)
    {i : Fin n} (h : ((p.tick input).1.motors i).state = .done) :
    (p.tick input).1.motors i = p.motors i ∨ (p.motors i).state = .running ∧
      (p.tick input).1.motors i = { p.motors i with state := .done } ∧
      (input.motor i).movingOrHolding = false ∧ (input.motor i).aborted = false := by
  rcases tick_motors input hcounts i with heq | ⟨-, hafter | hafter⟩
  · rw [heq] at h ⊢
    unfold trackedPlan at h ⊢
    split
    case isTrue hrests =>
      rw [if_pos hrests] at h
      dsimp only at h
      split at h
      · cases h
      case isFalse haborted =>
        rw [if_neg haborted]
        exact Or.inr ⟨hrests.1, rfl, hrests.2, by simpa using haborted⟩
    · exact Or.inl rfl
  · rw [h] at hafter
    cases hafter
  · rw [h] at hafter
    cases hafter

/-- A bend that runs after a tick was started by it, or it ran and its motor is busy. -/
theorem tick_running {p : FallbackPlanner n} {input : FallbackTickInput} (hcounts : ∀ i, 0 ≤ p.ticksSinceStart i)
    {i : Fin n} (h : ((p.tick input).1.motors i).state = .running) :
    (∃ action, (p.tick input).2 = some action ∧ action.motorId = i ∧
      action = ⟨i, (p.motors i).targetUsteps, (p.motors i).holdS, (p.motors i).speedHz⟩ ∧
      (p.tick input).1.motors i = { p.motors i with state := .running }) ∨
    (p.tick input).1.motors i = p.motors i ∧ (input.motor i).movingOrHolding = true := by
  by_cases hstarted : ∃ action, (p.tick input).2 = some action ∧ action.motorId = i
  · obtain ⟨action, haction, rfl⟩ := hstarted
    exact Or.inl ⟨action, haction, rfl, (tick_startable haction).bend, (tick_spec p input).started action haction⟩
  have hmoves := (tick_spec p input).motors i fun action haction hi => hstarted ⟨action, haction, hi⟩
  have hsame : (p.tick input).1.motors i = p.motors i := by
    rcases hmoves with (heq | ⟨-, heq | heq⟩) | ⟨-, -, heq⟩
    · exact heq
    · rw [heq] at h
      cases h
    · rw [heq] at h
      cases h
    · rw [heq] at h
      cases h
  rw [hsame] at h
  refine Or.inr ⟨hsame, ?_⟩
  rcases tick_motors input hcounts i with heq | ⟨hpending, -⟩
  · rw [hsame] at heq
    by_contra hrests
    rw [trackedPlan, if_pos ⟨h, by simpa using hrests⟩] at heq
    have hstate := congrArg FallbackMotorPlan.state heq
    dsimp only at hstate
    rw [h] at hstate
    split at hstate
    · cases hstate
    · cases hstate
  · rw [h] at hpending
    cases hpending

end FallbackPlanner

end Coatheal.Fallback
