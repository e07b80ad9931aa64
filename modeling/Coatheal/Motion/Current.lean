import Coatheal.Library.Numeric
import Mathlib.Data.Rat.Floor
import Mathlib.Tactic.NormNum
import Mathlib.Tactic.FieldSimp
import Mathlib.Tactic.Ring

/-!
# The current scalers of the motor driver

The chip delivers a fraction of what its sense resistor allows: a global scaler
out of 256 times a run scale out of 32. One of the two carries the request and
the other is held at an end of its range, so that one rounding decides the
error. The number type stands for the source's floating point and is taken as
exact; the square root is the platform's.
-/

namespace Coatheal.Motion

open Coatheal.Library

variable {K : Type*} [Field K] [LinearOrder K] [FloorRing K]

/-- The chip's fixed full-scale sense voltage. -/
def vfs : K := ((325 : ℤ) : K) / ((1000 : ℤ) : K)

/-- What `CalculateCurrent` writes: the global scaler, the run scale and the hold scale. -/
structure CurrentScale where
  globalscaler : ℤ
  irun : ℤ
  ihold : ℤ
deriving DecidableEq, Repr

/-- The peak current of a request, which gives the root mean square. -/
def peakOf (sqrt : K → K) (aRms : K) : K := aRms * sqrt ((2 : ℤ) : K)

/-- The peak current at the highest scalers. -/
def iPeakMax (senseOhm : K) : K := vfs / senseOhm

/-- The peak current the chip delivers at a global scaler and a run scale. -/
def deliveredAt (globalscaler irun : ℤ) (senseOhm : K) : K :=
  (globalscaler : K) / ((256 : ℤ) : K) * (((irun + 1 : ℤ) : K) / ((32 : ℤ) : K)) * iPeakMax senseOhm

/-- The run scale and the global scaler before its rounding, for a request within the full scale: up
to the half the global scaler carries it, above the half the run scale does, and below an eighth the
run scale does with the global scaler at its floor, unless that would deliver too much. -/
def scalersOf (iPeak senseOhm : K) : Option (ℤ × K) :=
  let fraction := iPeak / iPeakMax senseOhm
  if fraction ≤ 1 / ((2 : ℤ) : K) then
    let gsRaw := ((256 : ℤ) : K) * fraction
    if gsRaw < ((32 : ℤ) : K) then
      let chosen := clamp (llround (((256 : ℤ) : K) * iPeak * senseOhm / vfs) - 1) 0 31
      if deliveredAt 32 chosen senseOhm > iPeak * (((11 : ℤ) : K) / ((10 : ℤ) : K)) then none
      else some (chosen, ((32 : ℤ) : K))
    else some (31, gsRaw)
  else some (llround (((32 : ℤ) : K) * fraction) - 1, ((256 : ℤ) : K))

/-- The hold scale for a run scale, which a fraction of nought takes to nought and one leaves. -/
def holdScale (irun : ℤ) (holdFrac : K) : ℤ :=
  clamp (llround (((irun + 1 : ℤ) : K) * holdFrac) - 1) 0 irun

/-- The scalers for a run current, a sense resistor and a hold fraction; a value that is not finite
is absent, and so is the result when the request is refused. -/
def calculateCurrent (sqrt : K → K) (aRms senseOhm holdFrac : Option K) : Option CurrentScale :=
  match aRms, senseOhm, holdFrac with
  | some aRms, some senseOhm, some holdFrac =>
    if aRms ≤ 0 ∨ senseOhm ≤ 0 ∨ holdFrac < 0 ∨ holdFrac > 1 then none
    else if peakOf sqrt aRms > iPeakMax senseOhm then none
    else
      (scalersOf (peakOf sqrt aRms) senseOhm).map fun (chosen, gsRaw) =>
        let irun := clamp chosen 0 31
        { globalscaler := clamp (llround gsRaw) 32 256
          irun := irun
          ihold := holdScale irun holdFrac }
  | _, _, _ => none

/-- The peak current that the scalers deliver. -/
def CurrentScale.delivered (scale : CurrentScale) (senseOhm : K) : K :=
  deliveredAt scale.globalscaler scale.irun senseOhm

/-- The registers are in their ranges, the motor holds with no more than it runs with, and the
delivered current is at most a tenth above the request. -/
structure CurrentScale.Sound (scale : CurrentScale) (iPeak senseOhm : K) : Prop where
  globalscaler_mem : 32 ≤ scale.globalscaler ∧ scale.globalscaler ≤ 256
  irun_mem : 0 ≤ scale.irun ∧ scale.irun ≤ 31
  ihold_mem : 0 ≤ scale.ihold ∧ scale.ihold ≤ scale.irun
  delivered_le : scale.delivered senseOhm ≤ ((11 : ℤ) : K) / ((10 : ℤ) : K) * iPeak

variable [IsStrictOrderedRing K]

/-- The sense voltage is positive. -/
theorem vfs_pos : 0 < (vfs : K) := by
  unfold vfs
  exact div_pos (by norm_num) (by norm_num)

/-- Rounding leaves an integer as it is. -/
theorem llround_intCast (n : ℤ) : llround (n : K) = n := by
  have habs := abs_llround_sub_le (n : K)
  have hcast : |((llround (n : K) - n : ℤ) : K)| < 1 := by
    push_cast
    exact habs.trans_lt (by norm_num)
  have hint : |llround (n : K) - n| < 1 := by exact_mod_cast hcast
  exact sub_eq_zero.mp (Int.abs_lt_one_iff.mp hint)

/-- A number between two integers is rounded to a number between them. -/
theorem llround_mem {x : K} {low high : ℤ} (hlow : (low : K) ≤ x) (hhigh : x ≤ high) :
    low ≤ llround x ∧ llround x ≤ high := by
  have hfloor := llround_mono hlow
  have hceil := llround_mono hhigh
  rw [llround_intCast] at hfloor hceil
  exact ⟨hfloor, hceil⟩

/-- A positive resistor allows a positive current. -/
theorem iPeakMax_pos {senseOhm : K} (hsense : 0 < senseOhm) : 0 < iPeakMax senseOhm := div_pos vfs_pos hsense

/-- Up to the half of the full scale the global scaler alone carries the request. -/
theorem scalersOf_middle {iPeak senseOhm : K} (hsense : 0 < senseOhm)
    (hlow : iPeakMax senseOhm / 8 ≤ iPeak) (hhigh : iPeak ≤ iPeakMax senseOhm / 2) :
    scalersOf iPeak senseOhm = some (31, 256 * (iPeak / iPeakMax senseOhm)) := by
  have hfull : 0 < iPeakMax senseOhm := iPeakMax_pos hsense
  have hhalf : iPeak / iPeakMax senseOhm ≤ 1 / ((2 : ℤ) : K) := by
    rw [div_le_iff₀ hfull]
    push_cast
    linarith
  have heighth : ¬ ((256 : ℤ) : K) * (iPeak / iPeakMax senseOhm) < ((32 : ℤ) : K) := by
    have hfraction : 1 / 8 ≤ iPeak / iPeakMax senseOhm := by
      rw [le_div_iff₀ hfull]
      linarith
    push_cast
    linarith
  simp only [scalersOf]
  rw [if_pos hhalf, if_neg heighth]
  push_cast
  rfl

/-- Above the half of the full scale the run scale carries the request. -/
theorem scalersOf_high {iPeak senseOhm : K} (hsense : 0 < senseOhm)
    (hlow : iPeakMax senseOhm / 2 < iPeak) :
    scalersOf iPeak senseOhm = some (llround (32 * (iPeak / iPeakMax senseOhm)) - 1, 256) := by
  have hfull : 0 < iPeakMax senseOhm := iPeakMax_pos hsense
  have hhalf : ¬ iPeak / iPeakMax senseOhm ≤ 1 / ((2 : ℤ) : K) := by
    rw [div_le_iff₀ hfull]
    push_cast
    linarith
  simp only [scalersOf]
  rw [if_neg hhalf]
  push_cast
  rfl

/-- Below an eighth of the full scale the global scaler is at its floor, and what is delivered has been
looked at. -/
theorem scalersOf_low {iPeak senseOhm gsRaw : K} {chosen : ℤ} (hsense : 0 < senseOhm)
    (hhigh : iPeak < iPeakMax senseOhm / 8) (h : scalersOf iPeak senseOhm = some (chosen, gsRaw)) :
    gsRaw = ((32 : ℤ) : K) ∧ 0 ≤ chosen ∧ chosen ≤ 31 ∧
      deliveredAt 32 chosen senseOhm ≤ ((11 : ℤ) : K) / ((10 : ℤ) : K) * iPeak := by
  have hfull : 0 < iPeakMax senseOhm := iPeakMax_pos hsense
  have hfraction : iPeak / iPeakMax senseOhm < 1 / 8 := by
    rw [div_lt_iff₀ hfull]
    linarith
  have hhalf : iPeak / iPeakMax senseOhm ≤ 1 / ((2 : ℤ) : K) := by
    push_cast
    linarith
  have heighth : ((256 : ℤ) : K) * (iPeak / iPeakMax senseOhm) < ((32 : ℤ) : K) := by
    push_cast
    linarith
  simp only [scalersOf] at h
  rw [if_pos hhalf, if_pos heighth] at h
  split at h
  case isTrue => cases h
  case isFalse hdelivered =>
    obtain ⟨rfl, rfl⟩ := Prod.mk.inj (Option.some.inj h)
    obtain ⟨hirunLow, hirunHigh⟩ := clamp_mem
      (llround (((256 : ℤ) : K) * iPeak * senseOhm / vfs) - 1) (by norm_num : (0 : ℤ) ≤ 31)
    exact ⟨rfl, hirunLow, hirunHigh, (not_lt.mp hdelivered).trans_eq (mul_comm _ _)⟩

/-- What is delivered misses the request by no more than the rounding, which is half a step of a
scaler that stands at sixteen or more. -/
theorem abs_delivered_sub_le (range : ℤ) {iPeak full : K} {steps : ℤ} (hfull : 0 < full) (hrange : 0 < range)
    (hround : |(steps : K) - range * (iPeak / full)| ≤ 1 / 2) (hfine : full * 10 ≤ range * iPeak) :
    |(steps : K) / range * full - iPeak| ≤ 1 / 20 * iPeak := by
  have hrange' : (0 : K) < range := by exact_mod_cast hrange
  have hscaled : (steps : K) / range * full - iPeak =
      ((steps : K) - range * (iPeak / full)) * (full / range) := by
    field_simp
  have hstep : 0 < full / range := div_pos hfull hrange'
  rw [hscaled, abs_mul, abs_of_pos hstep]
  have hcoarse : full / range * 10 ≤ iPeak := by
    rw [div_mul_eq_mul_div, div_le_iff₀ hrange']
    linarith
  calc |(steps : K) - range * (iPeak / full)| * (full / range) ≤ 1 / 2 * (full / range) :=
        mul_le_mul_of_nonneg_right hround hstep.le
    _ ≤ 1 / 20 * iPeak := by linarith

/-- Up to the half of the full scale the delivered current is within a twentieth of the request. -/
theorem delivered_middle {iPeak senseOhm : K} (hsense : 0 < senseOhm)
    (hlow : iPeakMax senseOhm / 8 ≤ iPeak) (hhigh : iPeak ≤ iPeakMax senseOhm / 2) :
    |deliveredAt (clamp (llround (256 * (iPeak / iPeakMax senseOhm))) 32 256) 31 senseOhm - iPeak| ≤
      1 / 20 * iPeak := by
  have hfull := iPeakMax_pos hsense
  have hfloor : ((32 : ℤ) : K) ≤ 256 * (iPeak / iPeakMax senseOhm) := by
    rw [← mul_div_assoc, le_div_iff₀ hfull]
    push_cast
    linarith
  have hceiling : 256 * (iPeak / iPeakMax senseOhm) ≤ ((256 : ℤ) : K) := by
    rw [← mul_div_assoc, div_le_iff₀ hfull]
    push_cast
    linarith
  obtain ⟨hlowest, hhighest⟩ := llround_mem hfloor hceiling
  rw [clamp_of_mem hlowest hhighest]
  have hround := abs_llround_sub_le (256 * (iPeak / iPeakMax senseOhm))
  have herror := abs_delivered_sub_le 256 hfull (by norm_num) (by exact_mod_cast hround)
    (by push_cast; linarith)
  have hdelivered : deliveredAt (llround (256 * (iPeak / iPeakMax senseOhm))) 31 senseOhm =
      (llround (256 * (iPeak / iPeakMax senseOhm)) : K) / ((256 : ℤ) : K) * iPeakMax senseOhm := by
    unfold deliveredAt
    norm_num
  rw [hdelivered]
  exact herror

/-- Above the half of the full scale the delivered current is within a twentieth of the request, and the
run scale is in its range. -/
theorem delivered_high {iPeak senseOhm : K} (hsense : 0 < senseOhm)
    (hlow : iPeakMax senseOhm / 2 < iPeak) (hhigh : iPeak ≤ iPeakMax senseOhm) :
    |deliveredAt 256 (clamp (llround (32 * (iPeak / iPeakMax senseOhm)) - 1) 0 31) senseOhm - iPeak| ≤
      1 / 20 * iPeak := by
  have hfull := iPeakMax_pos hsense
  have hfloor : ((16 : ℤ) : K) ≤ 32 * (iPeak / iPeakMax senseOhm) := by
    rw [← mul_div_assoc, le_div_iff₀ hfull]
    push_cast
    linarith
  have hceiling : 32 * (iPeak / iPeakMax senseOhm) ≤ ((32 : ℤ) : K) := by
    rw [← mul_div_assoc, div_le_iff₀ hfull]
    push_cast
    linarith
  obtain ⟨hlowest, hhighest⟩ := llround_mem hfloor hceiling
  rw [clamp_of_mem (by omega) (by omega)]
  have hround := abs_llround_sub_le (32 * (iPeak / iPeakMax senseOhm))
  have herror := abs_delivered_sub_le 32 hfull (by norm_num) (by exact_mod_cast hround)
    (by push_cast; linarith)
  have hdelivered : deliveredAt 256 (llround (32 * (iPeak / iPeakMax senseOhm)) - 1) senseOhm =
      (llround (32 * (iPeak / iPeakMax senseOhm)) : K) / ((32 : ℤ) : K) * iPeakMax senseOhm := by
    unfold deliveredAt
    rw [Int.sub_add_cancel, div_self (by norm_num : ((256 : ℤ) : K) ≠ 0), one_mul]
  rw [hdelivered]
  exact herror

omit [IsStrictOrderedRing K] in
/-- A hold scale is between nought and the run scale. -/
theorem holdScale_mem {irun : ℤ} (hirun : 0 ≤ irun) (holdFrac : K) :
    0 ≤ holdScale irun holdFrac ∧ holdScale irun holdFrac ≤ irun :=
  clamp_mem _ hirun

/-- A delivered current within a twentieth of a positive request is at most a tenth above it. -/
theorem delivered_le_of_close {delivered iPeak : K} (hpos : 0 < iPeak)
    (hclose : |delivered - iPeak| ≤ 1 / 20 * iPeak) :
    delivered ≤ ((11 : ℤ) : K) / ((10 : ℤ) : K) * iPeak := by
  have hbound := (le_abs_self _).trans hclose
  push_cast
  linarith

/-- The scalers of an accepted request are in their ranges and deliver at most a tenth too much. -/
theorem scalersOf_sound {iPeak senseOhm holdFrac gsRaw : K} {chosen : ℤ} (hpos : 0 < iPeak)
    (hsense : 0 < senseOhm) (hreach : iPeak ≤ iPeakMax senseOhm)
    (h : scalersOf iPeak senseOhm = some (chosen, gsRaw)) :
    CurrentScale.Sound ⟨clamp (llround gsRaw) 32 256, clamp chosen 0 31,
      holdScale (clamp chosen 0 31) holdFrac⟩ iPeak senseOhm := by
  have hirun := clamp_mem chosen (by norm_num : (0 : ℤ) ≤ 31)
  refine ⟨clamp_mem _ (by norm_num), hirun, holdScale_mem hirun.1 holdFrac, ?_⟩
  rcases lt_or_ge iPeak (iPeakMax senseOhm / 8) with hlow | hlow
  · obtain ⟨hgs, hnonneg, hmax, hdelivered⟩ := scalersOf_low hsense hlow h
    rw [CurrentScale.delivered, hgs, llround_intCast, clamp_of_mem le_rfl (by norm_num),
      clamp_of_mem hnonneg hmax]
    exact hdelivered
  · rcases le_or_gt iPeak (iPeakMax senseOhm / 2) with hhalf | hhalf
    · rw [scalersOf_middle hsense hlow hhalf] at h
      obtain ⟨rfl, rfl⟩ := Prod.mk.inj (Option.some.inj h)
      rw [CurrentScale.delivered, clamp_of_mem (by norm_num : (0 : ℤ) ≤ 31) le_rfl]
      exact delivered_le_of_close hpos (delivered_middle hsense hlow hhalf)
    · rw [scalersOf_high hsense hhalf] at h
      obtain ⟨rfl, rfl⟩ := Prod.mk.inj (Option.some.inj h)
      have hcast : llround (256 : K) = 256 := by exact_mod_cast llround_intCast (256 : ℤ)
      rw [CurrentScale.delivered, hcast, clamp_of_mem (by norm_num : (32 : ℤ) ≤ 256) le_rfl]
      exact delivered_le_of_close hpos (delivered_high hsense hhalf hreach)

/-- A request between an eighth of the full scale and the full scale is carried within a twentieth. -/
theorem scalersOf_close {iPeak senseOhm : K} (hsense : 0 < senseOhm)
    (hlow : iPeakMax senseOhm / 8 ≤ iPeak) (hreach : iPeak ≤ iPeakMax senseOhm) :
    ∃ chosen gsRaw, scalersOf iPeak senseOhm = some (chosen, gsRaw) ∧
      |deliveredAt (clamp (llround gsRaw) 32 256) (clamp chosen 0 31) senseOhm - iPeak| ≤
        1 / 20 * iPeak := by
  rcases le_or_gt iPeak (iPeakMax senseOhm / 2) with hhalf | hhalf
  · refine ⟨31, _, scalersOf_middle hsense hlow hhalf, ?_⟩
    rw [clamp_of_mem (by norm_num : (0 : ℤ) ≤ 31) le_rfl]
    exact delivered_middle hsense hlow hhalf
  · refine ⟨_, 256, scalersOf_high hsense hhalf, ?_⟩
    have hcast : llround (256 : K) = 256 := by exact_mod_cast llround_intCast (256 : ℤ)
    rw [hcast, clamp_of_mem (by norm_num : (32 : ℤ) ≤ 256) le_rfl]
    exact delivered_high hsense hhalf hreach

/-- An accepted request has a positive current the resistor can deliver, and its scalers are sound. -/
theorem calculateCurrent_sound {sqrt : K → K} (hsqrt : 0 < sqrt ((2 : ℤ) : K))
    {aRms senseOhm holdFrac : Option K} {scale : CurrentScale}
    (h : calculateCurrent sqrt aRms senseOhm holdFrac = some scale) :
    ∃ a ohm, aRms = some a ∧ senseOhm = some ohm ∧ scale.Sound (peakOf sqrt a) ohm := by
  unfold calculateCurrent at h
  split at h
  case h_1 a ohm frac =>
    split_ifs at h with hinvalid hreach
    obtain ⟨⟨chosen, gsRaw⟩, hscalers, rfl⟩ := Option.map_eq_some_iff.mp h
    obtain ⟨hcurrent, hsense, -, -⟩ :
        ¬ a ≤ 0 ∧ ¬ ohm ≤ 0 ∧ ¬ frac < 0 ∧ ¬ frac > 1 := by
      simpa only [not_or] using hinvalid
    exact ⟨a, ohm, rfl, rfl, scalersOf_sound (mul_pos (not_le.mp hcurrent) hsqrt) (not_le.mp hsense)
      (not_lt.mp hreach) hscalers⟩
  case h_2 => cases h

/-- A request from an eighth of the full scale on is accepted with any hold fraction in its range. -/
theorem calculateCurrent_close {sqrt : K → K} (hsqrt : 0 < sqrt ((2 : ℤ) : K)) {aRms senseOhm holdFrac : K}
    (hsense : 0 < senseOhm) (hhold : 0 ≤ holdFrac ∧ holdFrac ≤ 1)
    (hlow : iPeakMax senseOhm / 8 ≤ peakOf sqrt aRms) (hreach : peakOf sqrt aRms ≤ iPeakMax senseOhm) :
    ∃ scale, calculateCurrent sqrt (some aRms) (some senseOhm) (some holdFrac) = some scale ∧
      |scale.delivered senseOhm - peakOf sqrt aRms| ≤ 1 / 20 * peakOf sqrt aRms := by
  have hpos : 0 < aRms := by
    have hpeak : 0 < aRms * sqrt ((2 : ℤ) : K) :=
      lt_of_lt_of_le (div_pos (iPeakMax_pos hsense) (by norm_num)) hlow
    exact (mul_pos_iff_of_pos_right hsqrt).mp hpeak
  have hvalid : ¬ (aRms ≤ 0 ∨ senseOhm ≤ 0 ∨ holdFrac < 0 ∨ holdFrac > 1) := by
    simp only [not_or, not_le, not_lt]
    exact ⟨hpos, hsense, hhold.1, hhold.2⟩
  obtain ⟨chosen, gsRaw, hscalers, hclose⟩ := scalersOf_close hsense hlow hreach
  refine ⟨⟨clamp (llround gsRaw) 32 256, clamp chosen 0 31, holdScale (clamp chosen 0 31) holdFrac⟩,
    ?_, hclose⟩
  simp only [calculateCurrent, if_neg hvalid, if_neg (not_lt.mpr hreach), hscalers, Option.map_some]

/-- Every accepted request gets registers in their ranges that deliver at most a tenth too much, and
every request between an eighth of the full scale and the full scale is accepted, with any hold
fraction in its range, and delivered within a twentieth. -/
theorem calculateCurrent_accuracy {sqrt : K → K} (hsqrt : 0 < sqrt ((2 : ℤ) : K)) :
    (∀ (aRms senseOhm holdFrac : Option K) (scale : CurrentScale),
      calculateCurrent sqrt aRms senseOhm holdFrac = some scale →
        ∃ a ohm, aRms = some a ∧ senseOhm = some ohm ∧ scale.Sound (peakOf sqrt a) ohm) ∧
    ∀ aRms senseOhm holdFrac : K, 0 < senseOhm → 0 ≤ holdFrac → holdFrac ≤ 1 →
      iPeakMax senseOhm / ((8 : ℤ) : K) ≤ peakOf sqrt aRms → peakOf sqrt aRms ≤ iPeakMax senseOhm →
        ∃ scale, calculateCurrent sqrt (some aRms) (some senseOhm) (some holdFrac) = some scale ∧
          |scale.delivered senseOhm - peakOf sqrt aRms| ≤
            ((5 : ℤ) : K) / ((100 : ℤ) : K) * peakOf sqrt aRms := by
  refine ⟨fun _ _ _ _ h => calculateCurrent_sound hsqrt h, ?_⟩
  intro aRms senseOhm holdFrac hsense hnonneg hone hlow hreach
  obtain ⟨scale, hscale, hclose⟩ := calculateCurrent_close hsqrt hsense ⟨hnonneg, hone⟩
    (by exact_mod_cast hlow) hreach
  refine ⟨scale, hscale, hclose.trans_eq ?_⟩
  norm_num

/-- The square root of two as a double has it, for the only argument it is asked for. -/
def doubleSqrt (_ : ℚ) : ℚ := ((6369051672525773 : ℤ) : ℚ) / ((4503599627370496 : ℤ) : ℚ)

/-- The default motor, 0.8 A on 75 mΩ and a hold at three tenths, is accepted and gets its current. -/
theorem calculateCurrent_accuracy_default :
    ∃ scale, calculateCurrent doubleSqrt (some (8 / 10)) (some (75 / 1000)) (some (3 / 10)) = some scale ∧
      |scale.delivered (75 / 1000 : ℚ) - peakOf doubleSqrt (8 / 10)| ≤
        ((5 : ℤ) : ℚ) / ((100 : ℤ) : ℚ) * peakOf doubleSqrt (8 / 10) := by
  have hsqrt : 0 < doubleSqrt ((2 : ℤ) : ℚ) := by decide +kernel
  exact (calculateCurrent_accuracy hsqrt).2 (8 / 10) (75 / 1000) (3 / 10) (by decide +kernel)
    (by decide +kernel) (by decide +kernel) (by decide +kernel) (by decide +kernel)

end Coatheal.Motion
