import Mathlib.Algebra.Order.Floor.Ring
import Mathlib.Algebra.Order.Field.Basic
import Mathlib.Data.Real.Basic
import Mathlib.Tactic.Linarith

/-!
# Clamping and conversions

The standard conversions between floating-point numbers and integers, over any
ordered field with a floor, and the clamp of the standard library.
-/

namespace Coatheal.Library

/-- Bring a value into the range from `low` to `high`. -/
def clamp {K : Type*} [LinearOrder K] (value low high : K) : K :=
  if value < low then low else if high < value then high else value

/-- A value inside the range is left alone. -/
theorem clamp_of_mem {K : Type*} [LinearOrder K] {value low high : K} (hlow : low ≤ value)
    (hhigh : value ≤ high) : clamp value low high = value := by
  rw [clamp, if_neg (not_lt.mpr hlow), if_neg (not_lt.mpr hhigh)]

/-- A value at or below the range is brought to its lower end. -/
theorem clamp_of_le {K : Type*} [LinearOrder K] {value low high : K} (h : value ≤ low)
    (hrange : low ≤ high) : clamp value low high = low := by
  unfold clamp
  split
  · rfl
  · rename_i hnot
    rw [le_antisymm h (not_lt.mp hnot), if_neg (not_lt.mpr hrange)]

/-- A clamped value is in the range. -/
theorem clamp_mem {K : Type*} [LinearOrder K] (value : K) {low high : K} (hrange : low ≤ high) :
    low ≤ clamp value low high ∧ clamp value low high ≤ high := by
  unfold clamp
  by_cases hlow : value < low
  · rw [if_pos hlow]
    exact ⟨le_rfl, hrange⟩
  · rw [if_neg hlow]
    by_cases hhigh : high < value
    · rw [if_pos hhigh]
      exact ⟨hrange, le_rfl⟩
    · rw [if_neg hhigh]
      exact ⟨not_lt.mp hlow, not_lt.mp hhigh⟩

/-- Clamping a value that is under a bound stays under it, if the lower end does. -/
theorem clamp_le {K : Type*} [LinearOrder K] {value low high bound : K} (hvalue : value ≤ bound)
    (hlow : low ≤ bound) : clamp value low high ≤ bound := by
  unfold clamp
  split
  · exact hlow
  · split
    · rename_i hhigh
      exact hhigh.le.trans hvalue
    · exact hvalue

/-- The value a 64-bit two's-complement integer has after an exact result was stored in it. -/
def wrap64 (x : ℤ) : ℤ := Int.bmod x (2 ^ 64)

/-- The magnitude of a 64-bit integer. The smallest one has none and stays as it is. -/
def abs64 (x : ℤ) : ℤ := wrap64 |x|

/-- A value in the range of 64-bit integers is stored as it is. -/
theorem wrap64_of_mem {x : ℤ} (hlow : -2 ^ 63 ≤ x) (hhigh : x < 2 ^ 63) : wrap64 x = x := by
  unfold wrap64
  apply Int.bmod_eq_of_le <;> omega

/-- The magnitude is right when it is in the range. -/
theorem abs64_of_lt {x : ℤ} (h : |x| < 2 ^ 63) : abs64 x = |x| :=
  wrap64_of_mem ((by norm_num : (-2 ^ 63 : ℤ) ≤ 0).trans (abs_nonneg x)) h

variable {K : Type*} [Field K] [LinearOrder K] [FloorRing K]

/-- Rounding to the nearest integer, halves away from zero. -/
def llround (x : K) : ℤ := if 0 ≤ x then ⌊x + 1 / 2⌋ else ⌈x - 1 / 2⌉

/-- Rounding changes a number by at most one half. -/
theorem abs_llround_sub_le [IsStrictOrderedRing K] (x : K) : |((llround x : ℤ) : K) - x| ≤ 1 / 2 := by
  unfold llround
  split
  · have hlow := Int.lt_floor_add_one (x + 1 / 2)
    have hhigh := Int.floor_le (x + 1 / 2)
    exact abs_le.mpr ⟨by linarith, by linarith⟩
  · have hlow := Int.le_ceil (x - 1 / 2)
    have hhigh := Int.ceil_lt_add_one (x - 1 / 2)
    exact abs_le.mpr ⟨by linarith, by linarith⟩

/-- A number less than half over an integer rounds to at most that integer. -/
theorem abs_llround_le [IsStrictOrderedRing K] {x : K} {limit : ℤ} (h : |x| < limit + 1 / 2) :
    |llround x| ≤ limit := by
  obtain ⟨hlow, hhigh⟩ := abs_lt.mp h
  unfold llround
  split
  case isTrue hsign =>
    have hfloor : ⌊x + 1 / 2⌋ < limit + 1 := Int.floor_lt.mpr (by push_cast; linarith)
    have hzero : 0 ≤ ⌊x + 1 / 2⌋ := Int.floor_nonneg.mpr (by linarith)
    exact abs_le.mpr ⟨by omega, by omega⟩
  case isFalse hsign =>
    have hceil : -limit - 1 < ⌈x - 1 / 2⌉ := Int.lt_ceil.mpr (by push_cast; linarith)
    have hzero : ⌈x - 1 / 2⌉ ≤ 0 := Int.ceil_le.mpr (by push_cast; linarith)
    exact abs_le.mpr ⟨by omega, by omega⟩

/-- Rounding keeps the order. -/
theorem llround_mono [IsStrictOrderedRing K] {x y : K} (h : x ≤ y) : llround x ≤ llround y := by
  unfold llround
  by_cases hx : 0 ≤ x
  · rw [if_pos hx, if_pos (hx.trans h)]
    exact Int.floor_mono (by linarith)
  · rw [if_neg hx]
    by_cases hy : 0 ≤ y
    · rw [if_pos hy]
      have hlow : ⌈x - 1 / 2⌉ ≤ 0 := Int.ceil_le.mpr (by push_cast; linarith)
      exact hlow.trans (Int.floor_nonneg.mpr (by linarith))
    · rw [if_neg hy]
      exact Int.ceil_mono (by linarith)

/-- Conversion to an integer, towards zero. -/
def truncate (x : K) : ℤ := if 0 ≤ x then ⌊x⌋ else ⌈x⌉

/-- The conversion of a number that is not negative leaves less than one. -/
theorem truncate_of_nonneg [IsStrictOrderedRing K] {x : K} (h : 0 ≤ x) :
    0 ≤ truncate x ∧ (truncate x : K) ≤ x ∧ x < truncate x + 1 := by
  unfold truncate
  rw [if_pos h]
  exact ⟨Int.floor_nonneg.mpr h, Int.floor_le x, Int.lt_floor_add_one x⟩

/-- One billionth, the tolerance of comparisons between computed numbers. -/
def billionth {K : Type*} [Field K] : K := 1 / 1000000000

end Coatheal.Library
