import Mathlib.Algebra.Order.BigOperators.Group.List
import Mathlib.Tactic.Ring

/-!
# Cutting the middle out

A run of numbers that loses its middle falls into two halves. The cuts it takes
until no part is longer than a limit are counted by the recursion over the
parts; as many cuts as there are inner nodes in a binary tree of a depth bring
every part below the length divided by that power of two.
-/

namespace Coatheal.Library

/-- The cuts that a run of some length takes until no part of it is longer than the limit. -/
def cuts (limit length : ℕ) : ℕ :=
  if length ≤ limit then 0 else 1 + cuts limit ((length - 1) / 2) + cuts limit (length / 2)
termination_by length
decreasing_by all_goals omega

variable {limit length : ℕ}

/-- A run within the limit takes no cut. -/
theorem cuts_of_le (h : length ≤ limit) : cuts limit length = 0 := by
  rw [cuts, if_pos h]

/-- A longer run takes the cut at its middle and those of its halves. -/
theorem cuts_of_lt (h : limit < length) :
    cuts limit length = 1 + cuts limit ((length - 1) / 2) + cuts limit (length / 2) := by
  rw [cuts, if_neg (not_le.mpr h)]

/-- A run that takes no cut is within the limit. -/
theorem le_of_cuts_eq_zero (h : cuts limit length = 0) : length ≤ limit := by
  by_contra hlong
  have hcuts := cuts_of_lt (not_le.mp hlong)
  omega

/-- A run that is within the limit after so many halvings takes fewer cuts than that power of two. -/
theorem cuts_lt_two_pow {depth : ℕ} (h : length / 2 ^ depth ≤ limit) : cuts limit length < 2 ^ depth := by
  induction depth generalizing length with
  | zero =>
    have hshort : length ≤ limit := by simpa using h
    rw [cuts_of_le hshort]
    exact Nat.two_pow_pos 0
  | succ depth ih =>
    have hlater : length / 2 / 2 ^ depth ≤ limit := by
      rwa [Nat.div_div_eq_div_mul, ← pow_succ']
    have hearlier : (length - 1) / 2 / 2 ^ depth ≤ limit :=
      le_trans (Nat.div_le_div_right (by omega)) hlater
    by_cases hshort : length ≤ limit
    · rw [cuts_of_le hshort]
      exact Nat.two_pow_pos _
    · have hfirst := ih hearlier
      have hsecond := ih hlater
      rw [cuts_of_lt (not_le.mp hshort), pow_succ]
      omega

/-- The cuts that several runs take together. -/
def totalCuts (limit : ℕ) (lengths : List ℕ) : ℕ := (lengths.map (cuts limit)).sum

/-- The order of the runs does not matter. -/
theorem totalCuts_perm {lengths others : List ℕ} (h : lengths.Perm others) :
    totalCuts limit lengths = totalCuts limit others := (h.map _).sum_eq

/-- Runs that take no cut together are all within the limit. -/
theorem le_of_totalCuts_eq_zero {lengths : List ℕ} (h : totalCuts limit lengths = 0)
    (hmem : length ∈ lengths) : length ≤ limit := by
  have hall := List.sum_eq_zero_iff.mp h
  exact le_of_cuts_eq_zero (hall _ (List.mem_map_of_mem hmem))

/-- Runs within the limit take no cut together. -/
theorem totalCuts_eq_zero {lengths : List ℕ} (h : ∀ length ∈ lengths, length ≤ limit) :
    totalCuts limit lengths = 0 := by
  refine List.sum_eq_zero_iff.mpr fun cut hcut => ?_
  obtain ⟨length, hmem, rfl⟩ := List.mem_map.mp hcut
  exact cuts_of_le (h length hmem)

/-- Cutting the middle out of a longest run takes one cut off what is left to cut. -/
theorem totalCuts_halve {rest : List ℕ} (hlongest : ∀ other ∈ rest, other ≤ length) :
    totalCuts limit ((length - 1) / 2 :: length / 2 :: rest) = totalCuts limit (length :: rest) - 1 := by
  by_cases hshort : length ≤ limit
  · have hbefore : totalCuts limit (length :: rest) = 0 :=
      totalCuts_eq_zero fun other hother => by
        rcases List.mem_cons.mp hother with rfl | hin
        · exact hshort
        · exact (hlongest other hin).trans hshort
    have hafter : totalCuts limit ((length - 1) / 2 :: length / 2 :: rest) = 0 :=
      totalCuts_eq_zero fun other hother => by
        rcases List.mem_cons.mp hother with rfl | hin
        · omega
        · rcases List.mem_cons.mp hin with rfl | hin
          · omega
          · exact (hlongest other hin).trans hshort
    rw [hbefore, hafter]
  · have hcuts := cuts_of_lt (not_le.mp hshort)
    simp only [totalCuts, List.map_cons, List.sum_cons]
    omega

end Coatheal.Library
