import Coatheal.Heater.Scheduler
import Mathlib.Algebra.BigOperators.Ring.List
import Mathlib.Data.Rat.Lemmas

/-!
# How the power is shared out

What one scheduling call gives each heater while the motion lock is free and the
budget lasts: no more than its request, to so many heaters at most, within the
power limit, in the order of the scores, and cut down by one factor for all.
-/

namespace Coatheal.Heater

open Coatheal.Library

/-- The checks the loader makes on the power limits. -/
def PowerConfig.check {K : Type*} [Field K] [LinearOrder K] (power : PowerConfig K) : Except String Unit :=
  if power.maxActiveHeaters = 0 ∨ 3 < power.maxActiveHeaters then
    .error "power.max_active_heaters must be 1..3 (owner power rule: never more than 3 heaters)"
  else if ¬ 0 < power.maxThermalW ∨ ((15 : ℕ) : K) < power.maxThermalW then
    .error "power.max_thermal_w must be > 0 and <= 15.0 (owner power rule)"
  else .ok ()

variable {K : Type*} [Field K] [LinearOrder K]

/-- Limits that pass the checks allow some thermal power. -/
theorem PowerConfig.maxThermalW_pos {power : PowerConfig K} (h : power.check = .ok ()) :
    0 < power.maxThermalW := by
  unfold check at h
  split at h
  · cases h
  split at h
  · cases h
  · rename_i hthermal
    exact not_not.mp fun hnot => hthermal (Or.inl hnot)

namespace HeaterScheduler

/-- The request of a heater as the scheduler reads it. -/
def clampedRequest (requested : List K) (i : ℕ) : K := clamp (requested.getD i 0) 0 1

/-- The score of a heater in one call. -/
def requestScore (s : HeaterScheduler K) (deprioritizeElectronics : Bool) (requested : List K) (i : ℕ) : K :=
  s.score deprioritizeElectronics i (clampedRequest requested i)

/-- The thermal power of some duties. -/
def thermalPower (s : HeaterScheduler K) (duties : List K) : K :=
  (duties.map fun duty => duty * s.power.heaterNominalW).sum

/-- The requests of the heaters that get anything, and nothing for the others. -/
def servedRequests (requested duties : List K) : List K :=
  (List.range duties.length).map fun i => if duties.getD i 0 = 0 then 0 else clampedRequest requested i

/-- A fair share of the requests: within the limits, in the order of the scores, with one factor
for every heater served. -/
structure FairShare (s : HeaterScheduler K) (deprioritizeElectronics : Bool) (requested duties : List K)
    (limit : K) : Prop where
  length : duties.length = requested.length
  nonneg : ∀ i, 0 ≤ duties.getD i 0
  le_request : ∀ i, duties.getD i 0 ≤ clampedRequest requested i
  active : (duties.countP fun duty => duty ≠ 0) ≤ s.power.maxActiveHeaters
  power : s.thermalPower duties ≤ limit
  factor : ∃ factor, 0 < factor ∧ factor ≤ 1 ∧
    (∀ i, duties.getD i 0 ≠ 0 → duties.getD i 0 = clampedRequest requested i * factor) ∧
    (factor ≠ 1 → s.power.maxThermalW < s.thermalPower (servedRequests requested duties))
  order : ∀ i j, 0 < clampedRequest requested i → duties.getD i 0 = 0 → duties.getD j 0 ≠ 0 →
    s.requestScore deprioritizeElectronics requested i ≤ s.requestScore deprioritizeElectronics requested j

/-- Duties that are all zero are a fair share of any requests. -/
theorem fairShare_off [IsStrictOrderedRing K] (s : HeaterScheduler K) (deprioritizeElectronics : Bool)
    (requested : List K) {limit : K} (hlimit : 0 ≤ limit) :
    FairShare s deprioritizeElectronics requested (List.replicate requested.length 0) limit := by
  have hoff : ∀ i, (List.replicate requested.length (0 : K)).getD i 0 = 0 := by
    intro i
    rw [List.getD_eq_getElem?_getD, List.getElem?_getD_replicate_default_eq]
  refine ⟨List.length_replicate, fun i => (hoff i).ge, fun i => ?_, ?_, ?_, ?_, ?_⟩
  · rw [hoff]
    exact (clamp_mem _ zero_le_one).1
  · rw [List.countP_replicate, if_neg (by simp)]
    exact Nat.zero_le _
  · simpa [thermalPower] using hlimit
  · exact ⟨1, one_pos, le_rfl, fun i hi => absurd (hoff i) hi, fun hne => absurd rfl hne⟩
  · exact fun i j _ _ hj => absurd (hoff j) hj

section Allocate

variable {clamped : List K}

/-- At most as many heaters come on as are left to come on. -/
theorem allocate_active (clamped : List K) (ranked : List (ℕ × K)) (left : ℕ) (scheduled : List K) :
    ((allocate clamped ranked left scheduled).countP fun duty => duty ≠ 0) ≤
      (scheduled.countP fun duty => duty ≠ 0) + left := by
  induction ranked generalizing left scheduled with
  | nil => exact Nat.le_add_right _ _
  | cons entry rest ih =>
    cases left with
    | zero => exact Nat.le_add_right _ _
    | succ left =>
      simp only [allocate]
      split
      · exact ih (left + 1) scheduled
      · have hset : ((scheduled.set entry.1 (clamped.getD entry.1 0)).countP fun duty => duty ≠ 0) ≤
            (scheduled.countP fun duty => duty ≠ 0) + 1 := by
          by_cases hrange : entry.1 < scheduled.length
          · rw [List.countP_set hrange]
            split <;> split <;> omega
          · rw [List.set_eq_of_length_le (not_lt.mp hrange)]
            exact Nat.le_add_right _ _
        exact (ih left _).trans (by omega)

omit [LinearOrder K] in
/-- Storing a request leaves the other heaters alone. -/
theorem getD_set_of_ne {scheduled : List K} {i k : ℕ} (value : K) (h : k ≠ i) :
    (scheduled.set k value).getD i 0 = scheduled.getD i 0 := by
  rw [List.getD_eq_getElem?_getD, List.getElem?_set_ne h, ← List.getD_eq_getElem?_getD]

/-- A heater that has got its request keeps it. -/
theorem allocate_keeps (ranked : List (ℕ × K)) (left : ℕ) {scheduled : List K} {i : ℕ}
    (h : scheduled.getD i 0 ≠ 0) : (allocate clamped ranked left scheduled).getD i 0 ≠ 0 := by
  induction ranked generalizing left scheduled with
  | nil => exact h
  | cons entry rest ih =>
    cases left with
    | zero => exact h
    | succ left =>
      simp only [allocate]
      split
      · exact ih (left + 1) h
      · rename_i hpos
        refine ih left ?_
        by_cases hsame : entry.1 = i
        · have hrange : i < scheduled.length := by
            by_contra hout
            exact h (List.getD_eq_default _ _ (not_lt.mp hout))
          rw [hsame, List.getD_eq_getElem?_getD, List.getElem?_set_self hrange]
          rw [hsame, not_le] at hpos
          exact hpos.ne'
        · rwa [getD_set_of_ne _ hsame]

/-- No heater with a request is passed over for one with a lower score. -/
theorem allocate_order {score : ℕ → K} {ranked : List (ℕ × K)} {left : ℕ} {scheduled : List K}
    (hsorted : ranked.Pairwise fun a b => b.2 ≤ a.2) (hscore : ∀ entry ∈ ranked, entry.2 = score entry.1)
    (hlength : ∀ entry ∈ ranked, entry.1 < scheduled.length) {i j : ℕ} (hi : i ∈ ranked.map Prod.fst)
    (hpos : 0 < clamped.getD i 0) (hpassed : (allocate clamped ranked left scheduled).getD i 0 = 0)
    (hbefore : scheduled.getD j 0 = 0) (hserved : (allocate clamped ranked left scheduled).getD j 0 ≠ 0) :
    score i ≤ score j := by
  induction ranked generalizing left scheduled with
  | nil => cases hi
  | cons entry rest ih =>
    obtain ⟨hhead, hrest⟩ := List.pairwise_cons.mp hsorted
    have hscoreRest := fun e he => hscore e (List.mem_cons_of_mem _ he)
    have hlengthRest := fun e he => hlength e (List.mem_cons_of_mem _ he)
    -- a heater of the rest scores at most as high as the head
    have hbelow : ∀ k ∈ rest.map Prod.fst, score k ≤ score entry.1 := by
      intro k hk
      obtain ⟨e, he, rfl⟩ := List.mem_map.mp hk
      rw [← hscoreRest e he, ← hscore entry List.mem_cons_self]
      exact hhead e he
    cases left with
    | zero => exact absurd hbefore hserved
    | succ left =>
      rw [List.map_cons, List.mem_cons] at hi
      simp only [allocate] at hpassed hserved
      split at hpassed
      · rename_i hnone
        rw [if_pos hnone] at hserved
        have hne : i ≠ entry.1 := fun heq => (heq ▸ hpos).not_ge hnone
        exact ih hrest hscoreRest hlengthRest (hi.resolve_left hne) hpassed hbefore hserved
      · rename_i hsome
        rw [if_neg hsome] at hserved
        have hon : ((scheduled.set entry.1 (clamped.getD entry.1 0)).getD entry.1 0) ≠ 0 := by
          rw [List.getD_eq_getElem?_getD,
            List.getElem?_set_self (hlength entry List.mem_cons_self), Option.getD_some]
          exact (not_le.mp hsome).ne'
        have hne : i ≠ entry.1 := fun heq => allocate_keeps rest left hon (heq ▸ hpassed)
        have hiRest := hi.resolve_left hne
        by_cases hsame : entry.1 = j
        · exact hsame ▸ hbelow i hiRest
        · refine ih hrest hscoreRest (fun e he => ?_) hiRest hpassed ?_ hserved
          · rw [List.length_set]
            exact hlengthRest e he
          · rwa [getD_set_of_ne _ hsame]

end Allocate

/-- The power limit cuts every duty by one factor, and only when the power is over the limit. -/
theorem limitPower_factor [IsStrictOrderedRing K] (s : HeaterScheduler K) (scheduled : List K)
    (hthermal : 0 < s.power.maxThermalW) :
    ∃ factor, 0 < factor ∧ factor ≤ 1 ∧
      (s.limitPower scheduled).2 = scheduled.map (· * factor) ∧
      (factor ≠ 1 → s.power.maxThermalW < s.thermalPower scheduled) ∧
      s.thermalPower (scheduled.map (· * factor)) ≤ max s.power.maxThermalW billionth := by
  unfold limitPower
  dsimp only
  rw [show (scheduled.map fun duty => duty * s.power.heaterNominalW).sum = s.thermalPower scheduled from rfl]
  split
  · rename_i hover
    have hpositive : 0 < s.thermalPower scheduled := hthermal.trans hover.1
    refine ⟨s.power.maxThermalW / s.thermalPower scheduled, div_pos hthermal hpositive,
      (div_le_one hpositive).mpr hover.1.le, rfl, fun _ => hover.1, ?_⟩
    have hscaled (factor : K) :
        s.thermalPower (scheduled.map (· * factor)) = s.thermalPower scheduled * factor := by
      unfold thermalPower
      rw [List.map_map, ← List.sum_map_mul_right]
      exact congrArg List.sum (List.map_congr_left fun duty _ => mul_right_comm _ _ _)
    rw [hscaled, mul_div_cancel₀ _ hpositive.ne']
    exact le_max_left _ _
  · rename_i hunder
    have hone : scheduled.map (· * (1 : K)) = scheduled := by simp only [mul_one, List.map_id']
    refine ⟨1, one_pos, le_rfl, hone.symm, fun hne => absurd rfl hne, ?_⟩
    rw [hone, le_max_iff]
    by_contra hboth
    rw [not_or, not_le, not_le] at hboth
    exact hunder ⟨hboth.1, hboth.2⟩

omit [LinearOrder K] in
/-- A factor scales each duty of a list. -/
theorem getD_map_mul (scheduled : List K) (factor : K) (i : ℕ) :
    (scheduled.map (· * factor)).getD i 0 = scheduled.getD i 0 * factor := by
  have hmap := @List.getD_map _ _ scheduled (0 : K) i (· * factor)
  rwa [zero_mul] at hmap

/-- What was allocated are the requests of the heaters that are served after scaling. -/
theorem servedRequests_map {requested allocated : List K} {factor : K} (hfactor : factor ≠ 0)
    (hmem : ∀ i, allocated.getD i 0 = 0 ∨ allocated.getD i 0 = clampedRequest requested i) :
    servedRequests requested (allocated.map (· * factor)) = allocated := by
  refine List.ext_getElem (by simp [servedRequests]) fun i hi hallocated => ?_
  have hget : allocated[i] = allocated.getD i 0 := (List.getD_eq_getElem allocated 0 hallocated).symm
  simp only [servedRequests, List.getElem_map, List.getElem_range]
  rw [getD_map_mul, hget]
  rcases hmem i with hzero | hwhole
  · rw [hzero, zero_mul, if_pos rfl]
  · split
    · rename_i hnone
      exact ((mul_eq_zero.mp hnone).resolve_right hfactor).symm
    · exact hwhole.symm

/-- The duties allocated and scaled to the power limit are a fair share of the requests. -/
theorem fairShare_limitPower [IsStrictOrderedRing K] (ranking : Ranking K) (s : HeaterScheduler K)
    (deprioritizeElectronics : Bool) (requested : List K) (hthermal : 0 < s.power.maxThermalW) :
    let clamped := requested.map fun duty => clamp duty 0 1
    let ranked := ranking.rank
      (clamped.zipIdx.map fun pair => (pair.2, s.score deprioritizeElectronics pair.2 pair.1))
    let allocated := allocate clamped ranked s.power.maxActiveHeaters
      (List.replicate requested.length (0 : K))
    FairShare s deprioritizeElectronics requested (s.limitPower allocated).2
      (max s.power.maxThermalW billionth) := by
  intro clamped ranked allocated
  have hoff : ∀ i, (List.replicate requested.length (0 : K)).getD i 0 = 0 := by
    intro i
    rw [List.getD_eq_getElem?_getD, List.getElem?_getD_replicate_default_eq]
  have hclamped : ∀ i, clamped.getD i 0 = clampedRequest requested i := by
    intro i
    have hmap := @List.getD_map _ _ requested (0 : K) i (fun duty => clamp duty 0 1)
    rwa [clamp_of_mem le_rfl zero_le_one] at hmap
  have hmem : ∀ i, allocated.getD i 0 = 0 ∨ allocated.getD i 0 = clampedRequest requested i := by
    intro i
    have h := allocate_mem clamped ranked s.power.maxActiveHeaters (Or.inl (hoff i))
    rwa [hclamped] at h
  have hrequest : ∀ i, 0 ≤ clampedRequest requested i := fun i => (clamp_mem _ zero_le_one).1
  have hnonneg : ∀ i, 0 ≤ allocated.getD i 0 :=
    fun i => (hmem i).elim (fun hzero => hzero.ge) fun hwhole => (hrequest i).trans_eq hwhole.symm
  have hlength : allocated.length = requested.length := by
    rw [allocate_length, List.length_replicate]
  -- every heater is ranked once, by its score
  have hentry : ∀ entry ∈ ranked,
      entry.1 < requested.length ∧ entry.2 = s.requestScore deprioritizeElectronics requested entry.1 := by
    intro entry hentry
    obtain ⟨pair, hpair, rfl⟩ := List.mem_map.mp ((ranking.perm _).mem_iff.mp hentry)
    have hget := List.mem_zipIdx_iff_getElem?.mp hpair
    obtain ⟨hrange, hvalue⟩ := List.getElem?_eq_some_iff.mp hget
    refine ⟨by simpa [clamped] using hrange, ?_⟩
    dsimp only [requestScore]
    rw [← hclamped, List.getD_eq_getElem _ _ hrange, hvalue]
  have hranked : ∀ i, 0 < clampedRequest requested i → i ∈ ranked.map Prod.fst := by
    intro i hpos
    have hrange : i < clamped.length := by
      by_contra hout
      rw [← hclamped, List.getD_eq_default _ _ (not_lt.mp hout)] at hpos
      exact lt_irrefl _ hpos
    have hzip : (clamped[i], i) ∈ clamped.zipIdx :=
      List.mem_zipIdx_iff_getElem?.mpr (List.getElem?_eq_getElem hrange)
    exact List.mem_map.mpr ⟨_, (ranking.perm _).mem_iff.mpr (List.mem_map_of_mem hzip), rfl⟩
  obtain ⟨factor, hpos, hone, hscaled, hbinds, hpower⟩ := limitPower_factor s allocated hthermal
  rw [hscaled]
  have hserved : ∀ i, (allocated.map (· * factor)).getD i 0 ≠ 0 → allocated.getD i 0 ≠ 0 := by
    intro i hi hzero
    exact hi (by rw [getD_map_mul, hzero, zero_mul])
  refine ⟨by rw [List.length_map, hlength], fun i => ?_, fun i => ?_, ?_, hpower,
    ⟨factor, hpos, hone, fun i hi => ?_, fun hne => ?_⟩, fun i j hi hpassed hj => ?_⟩
  · rw [getD_map_mul]
    exact mul_nonneg (hnonneg i) hpos.le
  · rw [getD_map_mul]
    refine (mul_le_of_le_one_right (hnonneg i) hone).trans ?_
    rcases hmem i with hzero | hwhole
    · exact hzero.trans_le (hrequest i)
    · exact hwhole.le
  · rw [List.countP_map]
    have hcount := allocate_active clamped ranked s.power.maxActiveHeaters
      (List.replicate requested.length (0 : K))
    rw [List.countP_replicate, if_neg (by simp), zero_add] at hcount
    refine le_trans (List.countP_mono_left fun duty _ hduty => ?_) hcount
    simp only [Function.comp_apply, ne_eq, mul_eq_zero, not_or, decide_eq_true_eq] at hduty ⊢
    exact hduty.1
  · rw [getD_map_mul, (hmem i).resolve_left (hserved i hi)]
  · rw [servedRequests_map hpos.ne' hmem]
    exact hbinds hne
  · rw [getD_map_mul, mul_eq_zero] at hpassed
    refine allocate_order (ranking.sorted _) (fun entry he => (hentry entry he).2) (fun entry he => ?_)
      (hranked i hi) (by rwa [hclamped]) (hpassed.resolve_right hpos.ne') (hoff j) (hserved j hj)
    rw [List.length_replicate]
    exact (hentry entry he).1

/-- While the motion lock is free and the budget lasts, a call shares the power out fairly, within
the limit or a billionth of a watt. -/
theorem schedule_fairShare [IsStrictOrderedRing K] (ranking : Ranking K) (s : HeaterScheduler K)
    (requested : List K) (deprioritizeElectronics : Bool) (dt : K) (hpower : s.power.check = .ok ())
    (hbudget : s.budgetExhausted = false) :
    FairShare s deprioritizeElectronics requested
      (s.schedule ranking false requested deprioritizeElectronics dt).1
      (max s.power.maxThermalW billionth) := by
  have hthermal := PowerConfig.maxThermalW_pos hpower
  have hshare := fairShare_limitPower ranking s deprioritizeElectronics requested hthermal
  have hoff := fairShare_off s deprioritizeElectronics requested
    (hthermal.le.trans (le_max_left s.power.maxThermalW billionth))
  unfold schedule
  dsimp only
  rw [if_neg Bool.false_ne_true, hbudget, if_neg Bool.false_ne_true]
  split
  · split
    · exact hoff
    · exact hshare
  · exact hshare

/-- Five heaters of five watts with room for three. -/
theorem schedule_fairShare_flight :
    let power : PowerConfig ℚ := ⟨3, 15, 5, 150⟩
    let requested : List ℚ := [1, 1 / 2, 0, 3, 1]
    power.check = .ok () ∧
      FairShare (.new power (some 3)) true requested
        ((HeaterScheduler.new power (some 3)).schedule .stable false requested true 1).1
        (max 15 billionth) :=
  ⟨by decide +kernel, schedule_fairShare .stable (.new ⟨3, 15, 5, 150⟩ (some 3)) [1, 1 / 2, 0, 3, 1] true 1
    (by decide +kernel) rfl⟩

/-- With a limit below a billionth of a watt a call may go over it, although the limit passes the
checks: the power is not scaled down when it is itself that small. -/
theorem schedule_not_fairShare :
    let power : PowerConfig ℚ := ⟨3, 1 / 10000000000, 5, 0⟩
    let requested : List ℚ := [1 / 10000000000]
    power.check = .ok () ∧ 0 < power.heaterNominalW ∧
      ¬ FairShare (.new power none) false requested
        ((HeaterScheduler.new power none).schedule .stable false requested false 0).1
        power.maxThermalW := by
  refine ⟨by decide +kernel, by decide +kernel, fun h => ?_⟩
  exact absurd h.power (by decide +kernel)

end HeaterScheduler

end Coatheal.Heater
