import Coatheal.Heater.Scheduler
import Coatheal.Library.Run
import Mathlib.Algebra.BigOperators.Ring.List

/-!
# The energy budget over a run of scheduling calls

The scheduler debits the energy of a call before it answers and answers zeros in
the call that would reach the budget. A record of the calls answered since the
last reset is kept beside it: what they delivered is what was debited, except
for the last debit, which delivers nothing.
-/

namespace Coatheal.Heater

open Coatheal.Library

variable {K : Type*} [Field K] [LinearOrder K]

namespace HeaterScheduler

/-- The energy of the duties over a time step, in watt hours. -/
def energyWh (power : PowerConfig K) (duties : List K) (dt : K) : K :=
  (duties.map fun duty => duty * power.heaterNominalW * (dt / (3600 : ℕ))).sum

omit [LinearOrder K] in
/-- Duties of zero take no energy. -/
theorem energyWh_zero (power : PowerConfig K) {duties : List K} (dt : K) (h : ∀ duty ∈ duties, duty = 0) :
    energyWh power duties dt = 0 := by
  refine List.sum_eq_zero fun energy henergy => ?_
  obtain ⟨duty, hduty, rfl⟩ := List.mem_map.mp henergy
  rw [h duty hduty, zero_mul, zero_mul]

omit [LinearOrder K] in
/-- The energy of the duties is their thermal power over the time step. -/
theorem energyWh_eq (power : PowerConfig K) (duties : List K) (dt : K) :
    energyWh power duties dt = (duties.map fun duty => duty * power.heaterNominalW).sum * (dt / 3600) := by
  rw [energyWh, List.sum_map_mul_right, Nat.cast_ofNat]

/-- The power that is debited is the thermal power of the duties after scaling. -/
theorem limitPower_fst [IsStrictOrderedRing K] (s : HeaterScheduler K) (scheduled : List K) :
    (s.limitPower scheduled).1 =
      ((s.limitPower scheduled).2.map fun duty => duty * s.power.heaterNominalW).sum := by
  unfold limitPower
  dsimp only
  split
  · rename_i hover
    have hbillionth : (0 : K) < billionth := by unfold billionth; positivity
    have hthermal := hbillionth.trans hover.2
    generalize hsum : (scheduled.map fun duty => duty * s.power.heaterNominalW).sum = thermal at hthermal ⊢
    calc s.power.maxThermalW
        = thermal * (s.power.maxThermalW / thermal) := (mul_div_cancel₀ _ hthermal.ne').symm
      _ = (scheduled.map fun duty => duty * s.power.heaterNominalW * (s.power.maxThermalW / thermal)).sum := by
          rw [List.sum_map_mul_right, hsum]
      _ = _ := by
          rw [List.map_map]
          congr 1
          exact List.map_congr_left fun duty _ => mul_right_comm _ _ _
  · rfl

/-- What one call over a positive time step does under a positive budget: it debits nothing, or it
debits and answers zeros because the budget is reached, or it debits what its duties deliver. -/
inductive Charges (s : HeaterScheduler K) (motionActive : Bool) (dt : K) (duties : List K)
    (next : HeaterScheduler K) : Prop where
  | idle (blocked : motionActive = true ∨ s.budgetExhausted = true) (off : ∀ duty ∈ duties, duty = 0)
      (consumed : next.energyConsumedWh = s.energyConsumedWh) (kept : next.budgetExhausted = s.budgetExhausted)
  | exhausts (free : motionActive = false) (off : ∀ duty ∈ duties, duty = 0)
      (reached : s.power.energyBudgetWh ≤ next.energyConsumedWh) (latched : next.budgetExhausted = true)
  | delivers (free : motionActive = false) (before : s.budgetExhausted = false)
      (consumed : next.energyConsumedWh = s.energyConsumedWh + energyWh s.power duties dt)
      (within : next.energyConsumedWh < s.power.energyBudgetWh) (kept : next.budgetExhausted = false)

/-- A scheduling call charges one of the three ways. -/
theorem schedule_charges [IsStrictOrderedRing K] (ranking : Ranking K) (s : HeaterScheduler K)
    (motionActive : Bool) (requested : List K) (deprioritizeElectronics : Bool) {dt : K} (hdt : 0 < dt)
    (hbudget : 0 < s.power.energyBudgetWh) :
    let result := s.schedule ranking motionActive requested deprioritizeElectronics dt
    Charges s motionActive dt result.1 result.2 ∧ result.2.power = s.power := by
  have hoff : ∀ duty ∈ List.replicate requested.length (0 : K), duty = 0 :=
    fun duty hduty => List.eq_of_mem_replicate hduty
  intro result
  cases motionActive with
  | true => exact ⟨.idle (Or.inl rfl) hoff rfl rfl, rfl⟩
  | false =>
    cases hexhausted : s.budgetExhausted with
    | true =>
      have hresult : result = (List.replicate requested.length 0, { s with lastInhibited := false }) := by
        simp only [result, schedule, hexhausted, Bool.false_eq_true, if_false, if_true]
      rw [hresult]
      exact ⟨.idle (Or.inr hexhausted) hoff rfl rfl, rfl⟩
    | false =>
      simp only [result, schedule, hexhausted, Bool.false_eq_true, if_false, gt_iff_lt, hbudget, hdt,
        and_self, if_true]
      split
      · rename_i hreached
        exact ⟨.exhausts rfl hoff hreached rfl, rfl⟩
      · rename_i hwithin
        refine ⟨.delivers rfl hexhausted ?_ (not_le.mp hwithin) rfl, rfl⟩
        rw [energyWh_eq, ← limitPower_fst]

end HeaterScheduler

/-- What the scheduler is asked: one call over a positive time step with the motion lock as it reads
it, or to start afresh. -/
inductive SchedulerInput (K : Type*) [Zero K] [LT K] where
  | schedule (motionActive : Bool) (requested : List K) (deprioritizeElectronics : Bool)
      (dt : { dt : K // 0 < dt })
  | reset

/-- A call that was answered, with the scheduler before and after it. -/
structure Answered (K : Type*) where
  before : HeaterScheduler K
  motionActive : Bool
  dt : K
  duties : List K
  after : HeaterScheduler K

/-- A scheduler with the calls it answered since the last reset, the newest first. -/
structure Metered (K : Type*) where
  scheduler : HeaterScheduler K
  answered : List (Answered K)

namespace Metered

/-- A new scheduler that was not asked yet. -/
def start (power : PowerConfig K) (electronicsHeaterIndex : Option ℕ) : Metered K :=
  ⟨.new power electronicsHeaterIndex, []⟩

/-- Take one input and record its answer. -/
def step (ranking : Ranking K) (m : Metered K) : SchedulerInput K → Metered K
  | .schedule motionActive requested deprioritizeElectronics dt =>
    let result := m.scheduler.schedule ranking motionActive requested deprioritizeElectronics dt
    ⟨result.2, ⟨m.scheduler, motionActive, dt, result.1, result.2⟩ :: m.answered⟩
  | .reset => ⟨m.scheduler.reset, []⟩

/-- The energy all calls since the last reset delivered. -/
def deliveredWh (m : Metered K) : K :=
  (m.answered.map fun call => HeaterScheduler.energyWh m.scheduler.power call.duties call.dt).sum

/-- The energy law: the calls since the last reset delivered no more than the budget, none after the
budget was exhausted delivered anything, and the calls under the motion lock were answered with zeros
and debited nothing. -/
structure KeepsBudget (budget : K) (m : Metered K) : Prop where
  delivered_le : m.deliveredWh ≤ budget
  exhausted_off : m.answered.Pairwise fun later earlier =>
    earlier.after.budgetExhausted = true → ∀ duty ∈ later.duties, duty = 0
  motion_off : ∀ call ∈ m.answered, call.motionActive = true →
    (∀ duty ∈ call.duties, duty = 0) ∧ call.after.energyConsumedWh = call.before.energyConsumedWh

/-- The law with what carries it: the budget is latched as exhausted exactly when the debits reached
it, and until then the debits are what was delivered. -/
structure Balanced (power : PowerConfig K) (m : Metered K) : Prop extends KeepsBudget power.energyBudgetWh m where
  power_eq : m.scheduler.power = power
  delivered_eq : m.scheduler.budgetExhausted = false → m.deliveredWh = m.scheduler.energyConsumedWh
  latched : ∀ call ∈ m.answered, call.after.budgetExhausted = true → m.scheduler.budgetExhausted = true

/-- A scheduler that was asked nothing since its reset is balanced. -/
theorem balanced_of_fresh {m : Metered K} {power : PowerConfig K} (hbudget : 0 ≤ power.energyBudgetWh)
    (hpower : m.scheduler.power = power) (hnone : m.answered = []) (hconsumed : m.scheduler.energyConsumedWh = 0) :
    Balanced power m := by
  have hdelivered : m.deliveredWh = 0 := by simp [deliveredWh, hnone]
  refine ⟨⟨hdelivered.trans_le hbudget, ?_, ?_⟩, hpower, fun _ => hdelivered.trans hconsumed.symm, ?_⟩
  · rw [hnone]
    exact .nil
  · simp [hnone]
  · simp [hnone]

omit [LinearOrder K] in
/-- One call adds what its duties deliver. -/
theorem deliveredWh_cons (scheduler : HeaterScheduler K) (call : Answered K) (answered : List (Answered K)) :
    deliveredWh ⟨scheduler, call :: answered⟩ =
      HeaterScheduler.energyWh scheduler.power call.duties call.dt + deliveredWh ⟨scheduler, answered⟩ := by
  rw [deliveredWh, List.map_cons, List.sum_cons]
  rfl

/-- An answered call keeps the balance. -/
theorem Balanced.charged {power : PowerConfig K} {m : Metered K} (h : Balanced power m) {motionActive : Bool}
    {dt : K} {duties : List K} {next : HeaterScheduler K}
    (hcharges : m.scheduler.Charges motionActive dt duties next) (hpower : next.power = m.scheduler.power) :
    Balanced power ⟨next, ⟨m.scheduler, motionActive, dt, duties, next⟩ :: m.answered⟩ := by
  have hnext : next.power = power := hpower.trans h.power_eq
  have hsame : deliveredWh ⟨next, m.answered⟩ = m.deliveredWh := by
    unfold deliveredWh
    rw [hpower]
  cases hcharges with
  | idle blocked off consumed kept =>
    have hdelivered := deliveredWh_cons next ⟨m.scheduler, motionActive, dt, duties, next⟩ m.answered
    rw [HeaterScheduler.energyWh_zero _ _ off, zero_add, hsame] at hdelivered
    refine ⟨⟨hdelivered.trans_le h.delivered_le, ?_, ?_⟩, hnext, ?_, ?_⟩
    · exact List.pairwise_cons.mpr ⟨fun _ _ _ => off, h.exhausted_off⟩
    · exact List.forall_mem_cons.mpr ⟨fun _ => ⟨off, consumed⟩, h.motion_off⟩
    · intro hrunning
      rw [hdelivered, consumed]
      exact h.delivered_eq (kept.symm.trans hrunning)
    · refine List.forall_mem_cons.mpr ⟨id, fun call hcall hexhausted => ?_⟩
      exact kept.trans (h.latched call hcall hexhausted)
  | exhausts free off reached latched =>
    have hdelivered := deliveredWh_cons next ⟨m.scheduler, motionActive, dt, duties, next⟩ m.answered
    rw [HeaterScheduler.energyWh_zero _ _ off, zero_add, hsame] at hdelivered
    refine ⟨⟨hdelivered.trans_le h.delivered_le, ?_, ?_⟩, hnext, ?_, fun _ _ _ => latched⟩
    · exact List.pairwise_cons.mpr ⟨fun _ _ _ => off, h.exhausted_off⟩
    · refine List.forall_mem_cons.mpr ⟨fun hmotion => ?_, h.motion_off⟩
      exact absurd (free.symm.trans hmotion) Bool.false_ne_true
    · intro hrunning
      exact absurd (hrunning.symm.trans latched) Bool.false_ne_true
  | delivers free before consumed within kept =>
    have hdelivered : deliveredWh ⟨next, ⟨m.scheduler, motionActive, dt, duties, next⟩ :: m.answered⟩ =
        next.energyConsumedWh := by
      rw [deliveredWh_cons, hsame, h.delivered_eq before, consumed, hpower, add_comm]
    have hnone : ∀ call ∈ m.answered, ¬ call.after.budgetExhausted = true := fun call hcall hexhausted =>
      absurd (before.symm.trans (h.latched call hcall hexhausted)) Bool.false_ne_true
    refine ⟨⟨?_, ?_, ?_⟩, hnext, fun _ => hdelivered, ?_⟩
    · rw [hdelivered, ← h.power_eq]
      exact within.le
    · exact List.pairwise_cons.mpr
        ⟨fun call hcall hexhausted => absurd hexhausted (hnone call hcall), h.exhausted_off⟩
    · refine List.forall_mem_cons.mpr ⟨fun hmotion => ?_, h.motion_off⟩
      exact absurd (free.symm.trans hmotion) Bool.false_ne_true
    · exact List.forall_mem_cons.mpr ⟨id, fun call hcall hexhausted => absurd hexhausted (hnone call hcall)⟩

/-- Every input keeps the balance. -/
theorem Balanced.step [IsStrictOrderedRing K] {power : PowerConfig K} (hbudget : 0 < power.energyBudgetWh)
    {m : Metered K} (h : Balanced power m) (ranking : Ranking K) (input : SchedulerInput K) :
    Balanced power (m.step ranking input) := by
  cases input with
  | schedule motionActive requested deprioritizeElectronics dt =>
    obtain ⟨hcharges, hpower⟩ := m.scheduler.schedule_charges ranking motionActive requested
      deprioritizeElectronics dt.2 (hbudget.trans_eq (congrArg _ h.power_eq.symm))
    exact h.charged hcharges hpower
  | reset => exact balanced_of_fresh hbudget.le h.power_eq rfl rfl

end Metered

end Coatheal.Heater
