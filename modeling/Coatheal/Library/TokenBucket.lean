import Mathlib.Algebra.Order.Field.Basic
import Mathlib.Data.Real.Basic
import Mathlib.Tactic.Linarith
import Mathlib.Tactic.Ring

/-!
# Token buckets

A bucket fills at a rate up to its burst. Filling in two steps is filling once,
and a bucket that is filled no faster stays behind another one by at least the
bytes still to come out of that one, as long as the cap does not cut into them.
-/

namespace Coatheal.Library

set_option linter.unusedSectionVars false

variable {K : Type*} [Field K] [LinearOrder K] [IsStrictOrderedRing K]

/-- The level of a bucket after some time without any outflow. -/
def fill (burst rate level elapsed : K) : K := min burst (level + rate * elapsed)

/-- A filled bucket holds at most its burst. -/
theorem fill_le_burst (burst rate level elapsed : K) : fill burst rate level elapsed ≤ burst :=
  min_le_left _ _

/-- In no time nothing comes in. -/
theorem fill_zero {burst level : K} (rate : K) (h : level ≤ burst) : fill burst rate level 0 = level := by
  rw [fill, mul_zero, add_zero, min_eq_right h]

/-- Filling twice is filling once, for as long as both together. -/
theorem fill_fill {burst rate level first second : K} (hrate : 0 ≤ rate) (hsecond : 0 ≤ second) :
    fill burst rate (fill burst rate level first) second =
      fill burst rate level (first + second) := by
  have hgain : 0 ≤ rate * second := mul_nonneg hrate hsecond
  have hsum : level + rate * first + rate * second = level + rate * (first + second) := by ring
  unfold fill
  rw [← min_add_add_right, ← min_assoc, min_eq_left (le_add_of_nonneg_right hgain), hsum]

/-- A bucket that lags by the bytes still unsent lags by them after a refill too, unless the refill
would fill it up before they are sent. -/
theorem fill_add_le {burst rate fasterRate level higher elapsed unsent : K}
    (h : level + unsent ≤ higher) (hrate : rate ≤ fasterRate) (helapsed : 0 ≤ elapsed)
    (hfit : unsent = 0 ∨ level + rate * elapsed + unsent ≤ burst) :
    fill burst rate level elapsed + unsent ≤ fill burst fasterRate higher elapsed := by
  have hgain : rate * elapsed ≤ fasterRate * elapsed := mul_le_mul_of_nonneg_right hrate helapsed
  have hgrown : level + rate * elapsed + unsent ≤ higher + fasterRate * elapsed := by linarith
  have hlow : fill burst rate level elapsed ≤ level + rate * elapsed := min_le_right _ _
  refine le_min ?_ (by linarith)
  rcases hfit with hzero | hfit
  · rw [hzero, add_zero]
    exact fill_le_burst _ _ _ _
  · linarith

end Coatheal.Library
