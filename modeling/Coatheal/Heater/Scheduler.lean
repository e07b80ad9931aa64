import Coatheal.Library.Numeric
import Mathlib.Algebra.BigOperators.Group.List.Basic
import Mathlib.Data.List.GetD
import Mathlib.Data.List.Sort

/-!
# The heater scheduler

One call turns the requested duties into the ones that are written: none while a
motor holds the motion lock or the energy budget is spent, otherwise at most so
many heaters at once, in the order of their requests, and scaled down to the
power limit. Numbers are exact.
-/

namespace Coatheal.Heater

open Coatheal.Library

/-- The power limits the scheduler enforces. -/
structure PowerConfig (K : Type*) where
  maxActiveHeaters : ℕ
  maxThermalW : K
  heaterNominalW : K
  energyBudgetWh : K

/-- A sort of the ranked heaters by falling score. Equal scores may end up in any order. -/
structure Ranking (K : Type*) [LinearOrder K] where
  rank : List (ℕ × K) → List (ℕ × K)
  perm : ∀ entries, (rank entries).Perm entries
  sorted : ∀ entries, (rank entries).Pairwise fun a b => b.2 ≤ a.2

variable {K : Type*} [Field K] [LinearOrder K]

/-- Entries ordered by falling score. -/
def ByScore (a b : ℕ × K) : Prop := b.2 ≤ a.2

instance : DecidableRel (@ByScore K _) := fun a b => inferInstanceAs (Decidable (b.2 ≤ a.2))

instance : Std.Total (@ByScore K _) := ⟨fun a b => le_total b.2 a.2⟩

instance : IsTrans (ℕ × K) ByScore := ⟨fun _ _ _ hab hbc => le_trans hbc hab⟩

/-- The ranking that keeps equal scores in their order. -/
def Ranking.stable : Ranking K where
  rank entries := entries.insertionSort ByScore
  perm entries := List.perm_insertionSort ByScore entries
  sorted entries := List.pairwise_insertionSort ByScore entries

/-- The state of the scheduler. The index of the electronics heater is absent when there is none. -/
structure HeaterScheduler (K : Type*) where
  power : PowerConfig K
  electronicsHeaterIndex : Option ℕ
  energyConsumedWh : K
  budgetExhausted : Bool
  lastInhibited : Bool

namespace HeaterScheduler

/-- A new scheduler. -/
def new (power : PowerConfig K) (electronicsHeaterIndex : Option ℕ) : HeaterScheduler K :=
  ⟨power, electronicsHeaterIndex, 0, false, false⟩

/-- Forget the energy spent and unlatch the budget. -/
def reset (s : HeaterScheduler K) : HeaterScheduler K :=
  { s with energyConsumedWh := 0, budgetExhausted := false, lastInhibited := false }

/-- The score a heater is ranked by: its request, a tenth of it for a deprioritised electronics
heater. -/
def score (s : HeaterScheduler K) (deprioritizeElectronics : Bool) (index : ℕ) (duty : K) : K :=
  if deprioritizeElectronics ∧ s.electronicsHeaterIndex = some index then duty * (1 / 10) else duty

/-- Give the ranked heaters their requests until `left` of them are on; heaters that ask for nothing
do not count. -/
def allocate (clamped : List K) : List (ℕ × K) → ℕ → List K → List K
  | [], _, scheduled => scheduled
  | (index, _) :: rest, left, scheduled =>
    match left with
    | 0 => scheduled
    | left + 1 =>
      if clamped.getD index 0 ≤ 0 then allocate clamped rest (left + 1) scheduled
      else allocate clamped rest left (scheduled.set index (clamped.getD index 0))

/-- Scale the duties down to the power limit; the result is the thermal power and the duties. -/
def limitPower (s : HeaterScheduler K) (scheduled : List K) : K × List K :=
  let thermal := (scheduled.map fun duty => duty * s.power.heaterNominalW).sum
  if thermal > s.power.maxThermalW ∧ thermal > billionth then
    (s.power.maxThermalW, scheduled.map fun duty => duty * (s.power.maxThermalW / thermal))
  else (thermal, scheduled)

/-- One scheduling call, with the motion lock as it was read at its start. -/
def schedule (ranking : Ranking K) (s : HeaterScheduler K) (motionActive : Bool) (requested : List K)
    (deprioritizeElectronics : Bool) (dt : K) : List K × HeaterScheduler K :=
  let off := List.replicate requested.length (0 : K)
  if motionActive then (off, { s with lastInhibited := true })
  else
    let resumed := { s with lastInhibited := false }
    if resumed.budgetExhausted then (off, resumed)
    else
      let clamped := requested.map fun duty => clamp duty 0 1
      let ranked := ranking.rank
        (clamped.zipIdx.map fun pair => (pair.2, s.score deprioritizeElectronics pair.2 pair.1))
      let allocated := allocate clamped ranked s.power.maxActiveHeaters off
      let (thermal, scheduled) := s.limitPower allocated
      if s.power.energyBudgetWh > 0 ∧ dt > 0 then
        let consumed := s.energyConsumedWh + thermal * (dt / 3600)
        if consumed ≥ s.power.energyBudgetWh then
          (off, { resumed with energyConsumedWh := consumed, budgetExhausted := true })
        else (scheduled, { resumed with energyConsumedWh := consumed })
      else (scheduled, resumed)

/-- While the lock is held every duty is zero and the call reports the inhibition. -/
theorem schedule_motionActive (ranking : Ranking K) (s : HeaterScheduler K) (requested : List K)
    (deprioritizeElectronics : Bool) (dt : K) :
    let result := s.schedule ranking true requested deprioritizeElectronics dt
    (∀ duty ∈ result.1, duty = 0) ∧ result.2.lastInhibited = true := by
  refine ⟨fun duty hduty => ?_, rfl⟩
  exact List.eq_of_mem_replicate hduty

/-- Allocation keeps the number of heaters. -/
theorem allocate_length (clamped : List K) (ranked : List (ℕ × K)) (left : ℕ) (scheduled : List K) :
    (allocate clamped ranked left scheduled).length = scheduled.length := by
  induction ranked generalizing left scheduled with
  | nil => rfl
  | cons entry rest ih =>
    cases left with
    | zero => rfl
    | succ left =>
      simp only [allocate]
      split
      · exact ih (left + 1) scheduled
      · rw [ih, List.length_set]

/-- A heater that asks for nothing gets nothing. -/
theorem allocate_of_nonpos {clamped : List K} {i : ℕ} (hclamped : clamped.getD i 0 ≤ 0)
    (ranked : List (ℕ × K)) (left : ℕ) {scheduled : List K} (hscheduled : scheduled.getD i 0 = 0) :
    (allocate clamped ranked left scheduled).getD i 0 = 0 := by
  induction ranked generalizing left scheduled with
  | nil => exact hscheduled
  | cons entry rest ih =>
    cases left with
    | zero => exact hscheduled
    | succ left =>
      simp only [allocate]
      split
      · exact ih (left + 1) hscheduled
      · rename_i hpos
        refine ih left ?_
        have hne : entry.1 ≠ i := fun heq => hpos (heq ▸ hclamped)
        rw [List.getD_eq_getElem?_getD, List.getElem?_set_ne hne, ← List.getD_eq_getElem?_getD]
        exact hscheduled

/-- Scaling leaves a duty of zero. -/
theorem limitPower_of_eq_zero (s : HeaterScheduler K) {scheduled : List K} {i : ℕ}
    (h : scheduled.getD i 0 = 0) : (s.limitPower scheduled).2.getD i 0 = 0 := by
  unfold limitPower
  dsimp only
  split
  · have hmap := @List.getD_map _ _ scheduled (0 : K) i
      (fun duty => duty * (s.power.maxThermalW / (scheduled.map fun duty =>
        duty * s.power.heaterNominalW).sum))
    rw [zero_mul] at hmap
    rw [hmap, h, zero_mul]
  · exact h

/-- A heater that asks for nothing is scheduled nothing. -/
theorem schedule_of_nonpos [IsStrictOrderedRing K] (ranking : Ranking K) (s : HeaterScheduler K)
    (motionActive : Bool) {requested : List K} (deprioritizeElectronics : Bool) (dt : K) {i : ℕ}
    (h : requested.getD i 0 ≤ 0) :
    (s.schedule ranking motionActive requested deprioritizeElectronics dt).1.getD i 0 = 0 := by
  have hoff : (List.replicate requested.length (0 : K)).getD i 0 = 0 := by
    rw [List.getD_eq_getElem?_getD, List.getElem?_getD_replicate_default_eq]
  have hclamped : (requested.map fun duty => clamp duty 0 1).getD i 0 ≤ 0 := by
    have hmap := @List.getD_map _ _ requested (0 : K) i (fun duty => clamp duty 0 1)
    rw [clamp_of_mem le_rfl zero_le_one] at hmap
    rw [hmap, clamp_of_le h zero_le_one]
  unfold schedule
  dsimp only
  split
  · exact hoff
  split
  · exact hoff
  split
  · split
    · exact hoff
    · exact limitPower_of_eq_zero s (allocate_of_nonpos hclamped _ _ hoff)
  · exact limitPower_of_eq_zero s (allocate_of_nonpos hclamped _ _ hoff)

/-- An allocated duty is the request or nothing. -/
theorem allocate_mem (clamped : List K) (ranked : List (ℕ × K)) (left : ℕ) {scheduled : List K} {i : ℕ}
    (h : scheduled.getD i 0 = 0 ∨ scheduled.getD i 0 = clamped.getD i 0) :
    (allocate clamped ranked left scheduled).getD i 0 = 0 ∨
      (allocate clamped ranked left scheduled).getD i 0 = clamped.getD i 0 := by
  induction ranked generalizing left scheduled with
  | nil => exact h
  | cons entry rest ih =>
    cases left with
    | zero => exact h
    | succ left =>
      simp only [allocate]
      split
      · exact ih (left + 1) h
      · refine ih left ?_
        by_cases hsame : entry.1 = i
        · by_cases hrange : i < scheduled.length
          · rw [hsame, List.getD_eq_getElem?_getD, List.getElem?_set_self hrange]
            exact Or.inr rfl
          · rw [List.getD_eq_default _ _ (by rw [List.length_set]; omega)]
            exact Or.inl rfl
        · rw [List.getD_eq_getElem?_getD, List.getElem?_set_ne hsame, ← List.getD_eq_getElem?_getD]
          exact h

/-- The power limit only lowers a duty. -/
theorem limitPower_le [IsStrictOrderedRing K] (s : HeaterScheduler K) {scheduled : List K} {i : ℕ}
    (h : 0 ≤ scheduled.getD i 0) : (s.limitPower scheduled).2.getD i 0 ≤ scheduled.getD i 0 := by
  unfold limitPower
  dsimp only
  generalize (scheduled.map fun duty => duty * s.power.heaterNominalW).sum = thermal
  split
  · rename_i hover
    have hbillionth : (0 : K) < billionth := by unfold billionth; positivity
    have hthermal : 0 < thermal := hbillionth.trans hover.2
    have hratio : s.power.maxThermalW / thermal ≤ 1 := (div_le_one hthermal).mpr hover.1.le
    have hmap := @List.getD_map _ _ scheduled (0 : K) i (fun duty => duty * (s.power.maxThermalW / thermal))
    rw [zero_mul] at hmap
    rw [hmap]
    exact mul_le_of_le_one_right h hratio
  · exact le_rfl

/-- No heater is scheduled more than it asks for, brought into the range of duties. -/
theorem schedule_le [IsStrictOrderedRing K] (ranking : Ranking K) (s : HeaterScheduler K)
    (motionActive : Bool) (requested : List K) (deprioritizeElectronics : Bool) (dt : K) (i : ℕ) :
    (s.schedule ranking motionActive requested deprioritizeElectronics dt).1.getD i 0 ≤
      clamp (requested.getD i 0) 0 1 := by
  have hbounds := clamp_mem (requested.getD i 0) (zero_le_one' K)
  have hoff : (List.replicate requested.length (0 : K)).getD i 0 = 0 := by
    rw [List.getD_eq_getElem?_getD, List.getElem?_getD_replicate_default_eq]
  have hnothing : (List.replicate requested.length (0 : K)).getD i 0 ≤ clamp (requested.getD i 0) 0 1 := by
    rw [hoff]
    exact hbounds.1
  have hclamped : (requested.map fun duty => clamp duty 0 1).getD i 0 = clamp (requested.getD i 0) 0 1 := by
    have hmap := @List.getD_map _ _ requested (0 : K) i (fun duty => clamp duty 0 1)
    rwa [clamp_of_mem le_rfl zero_le_one] at hmap
  have hlimited (ranked : List (ℕ × K)) :
      (s.limitPower (allocate (requested.map fun duty => clamp duty 0 1) ranked s.power.maxActiveHeaters
        (List.replicate requested.length 0))).2.getD i 0 ≤ clamp (requested.getD i 0) 0 1 := by
    have hallocated := allocate_mem (requested.map fun duty => clamp duty 0 1) ranked s.power.maxActiveHeaters
      (Or.inl hoff)
    rw [hclamped] at hallocated
    rcases hallocated with hzero | hwhole
    · exact (limitPower_le s hzero.ge).trans (hzero.trans_le hbounds.1)
    · exact (limitPower_le s (hbounds.1.trans_eq hwhole.symm)).trans hwhole.le
  unfold schedule
  dsimp only
  split
  · exact hnothing
  split
  · exact hnothing
  split
  · split
    · exact hnothing
    · exact hlimited _
  · exact hlimited _

end HeaterScheduler

end Coatheal.Heater
