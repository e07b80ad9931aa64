import Coatheal.Heater.Pid
import Coatheal.Library.Run
import Mathlib.Algebra.Order.BigOperators.Group.List
import Mathlib.Tactic.Positivity
import Mathlib.Tactic.Ring

/-!
# What a finished tune has measured

A tune collects the peaks and troughs of the oscillation and the times between
the switches from off to on. Whatever the temperatures do, the three stay in
step: each switch adds a peak and, but for the first, a period, and each
heating phase but the first a trough. A tune that reports done has gains from
as many cycles as were asked for.
-/

namespace Coatheal.Heater

open Coatheal.Library

namespace PidAutoTuner

/-- What can be asked of a tune. -/
inductive Call where
  | tick (tempValid : Bool) (tempC nowS : ℚ)
  | abort (reason : String)

/-- Carry out a call. -/
def apply (t : PidAutoTuner) : Call → PidAutoTuner
  | .tick tempValid tempC nowS => (t.tick tempValid tempC nowS).2
  | .abort reason => t.abort reason

/-- The time of a call that switches the relay from off to on. -/
def onSwitch (t : PidAutoTuner) : Call → Option ℚ
  | .tick tempValid tempC nowS =>
    if !t.relayOn && (t.tick tempValid tempC nowS).2.relayOn then some nowS else none
  | .abort _ => none

/-- The times of the switches from off to on in a run, behind those before it. -/
def onSwitches : PidAutoTuner → List ℚ → List Call → List ℚ
  | _, before, [] => before
  | t, before, call :: rest => onSwitches (t.apply call) (before ++ (t.onSwitch call).toList) rest

/-- The temperature at which the relay switches off. -/
def high (cfg : TunerConfig) : ℚ := cfg.setpointC + cfg.hysteresisC

/-- The temperature at which the relay switches on. -/
def low (cfg : TunerConfig) : ℚ := cfg.setpointC - cfg.hysteresisC

/-- The periods add up to the time from the first switch to the last one. -/
def Spans (periodsS times : List ℚ) (lastOnSwitchS : ℚ) : Prop :=
  periodsS.length + 1 = times.length ∧ times.getLast? = some lastOnSwitchS ∧
    ∃ first, times.head? = some first ∧ periodsS.sum = lastOnSwitchS - first

/-- The measurements of a tune agree with the switches so far. -/
structure Collects (t : PidAutoTuner) (times : List ℚ) : Prop where
  peaks_length : t.peaksC.length = times.length
  troughs_length : t.troughsC.length = if t.relayOn then times.length - 1 else times.length
  first_iff : t.firstOnPhase = true ↔ t.relayOn = true ∧ times = []
  have_iff : t.haveOnSwitch = true ↔ times ≠ []
  none_iff : times = [] → t.periodsS = []
  spans : times ≠ [] → Spans t.periodsS times t.lastOnSwitchS
  peaks_high : ∀ peak ∈ t.peaksC, high t.cfg ≤ peak
  troughs_low : ∀ trough ∈ t.troughsC, trough ≤ low t.cfg
  peak_high : t.relayOn = false → high t.cfg ≤ t.peakC
  trough_low : t.relayOn = true → times ≠ [] → t.troughC ≤ low t.cfg

/-- What a tune that is done has measured. -/
structure Measured (t : PidAutoTuner) (times : List ℚ) : Prop where
  peaks_length : t.peaksC.length = t.periodsS.length + 1
  troughs_length : t.troughsC.length = t.periodsS.length
  enough : max 1 t.cfg.cycles ≤ t.troughsC.length
  peaks_high : ∀ peak ∈ t.peaksC, high t.cfg ≤ peak
  troughs_low : ∀ trough ∈ t.troughsC, trough ≤ low t.cfg
  amplitude_ge : t.cfg.hysteresisC ≤ t.result.amplitudeC ∧ 1 / 20 ≤ t.result.amplitudeC
  amplitude_eq : t.result.amplitudeC = (mean t.peaksC - mean t.troughsC) / 2
  switches : times.length = t.periodsS.length + 1
  period_ge : 5 ≤ t.result.tuS
  period_eq : t.result.tuS = mean t.periodsS ∧ ∃ first last, times.head? = some first ∧
    times.getLast? = some last ∧ t.result.tuS = (last - first) / t.periodsS.length
  gains_pos : 0 < t.result.ku ∧ 0 < t.result.kp ∧ 0 < t.result.ki ∧ 0 < t.result.kd ∧
    0 < t.result.znKp ∧ 0 < t.result.znKi ∧ 0 < t.result.znKd

/-- A tune agrees with the switches so far: its measurements while it runs, and its result when it is
done. -/
def Agrees (t : PidAutoTuner) (times : List ℚ) : Prop :=
  (t.state = .running → t.Collects times) ∧ (t.state = .done → t.Measured times)

/-- The mean of values that are not below a bound is not. -/
theorem le_mean {values : List ℚ} {bound : ℚ} (hne : values ≠ []) (h : ∀ value ∈ values, bound ≤ value) :
    bound ≤ mean values := by
  have hlength : (0 : ℚ) < values.length := by exact_mod_cast List.length_pos_iff.mpr hne
  rw [mean, if_neg hne, le_div_iff₀ hlength, mul_comm, ← nsmul_eq_mul]
  exact List.card_nsmul_le_sum values bound h

/-- The mean of values that are not above a bound is not. -/
theorem mean_le {values : List ℚ} {bound : ℚ} (hne : values ≠ []) (h : ∀ value ∈ values, value ≤ bound) :
    mean values ≤ bound := by
  have hlength : (0 : ℚ) < values.length := by exact_mod_cast List.length_pos_iff.mpr hne
  rw [mean, if_neg hne, div_le_iff₀ hlength, mul_comm, ← nsmul_eq_mul]
  exact List.sum_le_card_nsmul values bound h

/-- A new tune has measured nothing. -/
theorem collects_start (cfg : TunerConfig) (nowS : ℚ) : (start cfg nowS).Collects [] where
  peaks_length := rfl
  troughs_length := rfl
  first_iff := ⟨fun _ => ⟨rfl, rfl⟩, fun _ => rfl⟩
  have_iff := ⟨fun h => Bool.noConfusion h, fun h => absurd rfl h⟩
  none_iff _ := rfl
  spans h := absurd rfl h
  peaks_high _ h := nomatch h
  troughs_low _ h := nomatch h
  peak_high h := Bool.noConfusion h
  trough_low _ h := absurd rfl h

/-- A measurement while heating keeps the agreement: at its end a trough is added, but for that of the
approach. -/
theorem Collects.tickOn {t : PidAutoTuner} {times : List ℚ} (h : t.Collects times) (hon : t.relayOn = true)
    (tempC : ℚ) : (t.tickOn tempC).Collects times := by
  have hlength := h.troughs_length
  rw [if_pos hon] at hlength
  have htrough : times ≠ [] → min t.troughC tempC ≤ low t.cfg :=
    fun hne => (min_le_left _ _).trans (h.trough_low hon hne)
  unfold PidAutoTuner.tickOn
  dsimp only
  split
  case isFalse =>
    exact { h with trough_low := fun _ hne => htrough hne }
  case isTrue hswitch =>
    by_cases hfirst : t.firstOnPhase = true
    · obtain ⟨-, rfl⟩ := h.first_iff.mp hfirst
      rw [if_pos hfirst]
      exact {
        peaks_length := h.peaks_length
        troughs_length := by simpa using hlength
        first_iff := ⟨fun hno => Bool.noConfusion hno, fun hno => Bool.noConfusion hno.1⟩
        have_iff := h.have_iff
        none_iff := h.none_iff
        spans := h.spans
        peaks_high := h.peaks_high
        troughs_low := h.troughs_low
        peak_high := fun _ => hswitch
        trough_low := fun hno => Bool.noConfusion hno }
    · have hne : times ≠ [] := fun hnone => hfirst (h.first_iff.mpr ⟨hon, hnone⟩)
      have hpos := List.length_pos_iff.mpr hne
      rw [if_neg hfirst]
      exact {
        peaks_length := h.peaks_length
        troughs_length := by
          rw [if_neg Bool.false_ne_true, List.length_append, hlength, List.length_singleton]
          omega
        first_iff := ⟨fun hno => Bool.noConfusion hno, fun hno => Bool.noConfusion hno.1⟩
        have_iff := h.have_iff
        none_iff := h.none_iff
        spans := h.spans
        peaks_high := h.peaks_high
        troughs_low := List.forall_mem_append.mpr
          ⟨h.troughs_low, List.forall_mem_singleton.mpr (htrough hne)⟩
        peak_high := fun _ => hswitch
        trough_low := fun hno => Bool.noConfusion hno }

/-- The first switch spans no time. -/
theorem spans_first (nowS : ℚ) : Spans [] [nowS] nowS :=
  ⟨rfl, rfl, nowS, rfl, (sub_self nowS).symm⟩

/-- Another switch adds the time since the one before. -/
theorem Spans.append {periodsS times : List ℚ} {lastOnSwitchS : ℚ} (h : Spans periodsS times lastOnSwitchS)
    (nowS : ℚ) : Spans (periodsS ++ [nowS - lastOnSwitchS]) (times ++ [nowS]) nowS := by
  obtain ⟨hlength, -, first, hfirst, hsum⟩ := h
  refine ⟨by simp [hlength], by simp, first, ?_, ?_⟩
  · rw [List.head?_append, hfirst]
    rfl
  · rw [List.sum_append, hsum, List.sum_singleton]
    ring

/-- A measurement while cooling keeps the agreement with the switches: at its end there is a peak and a
switch more and, but for the first one, a period. -/
theorem Collects.tickOff {t : PidAutoTuner} {times : List ℚ} (h : t.Collects times) (hoff : t.relayOn = false)
    (tempC nowS : ℚ) :
    (t.tickOff tempC nowS).1.Collects
      (if (t.tickOff tempC nowS).1.relayOn then times ++ [nowS] else times) := by
  have hlength := h.troughs_length
  rw [if_neg (by rw [hoff]; exact Bool.false_ne_true)] at hlength
  have hpeak : high t.cfg ≤ max t.peakC tempC := (h.peak_high hoff).trans (le_max_left _ _)
  have hnotFirst : t.firstOnPhase = false := by
    rw [← Bool.not_eq_true]
    intro hfirst
    rw [(h.first_iff.mp hfirst).1] at hoff
    cases hoff
  unfold PidAutoTuner.tickOff
  dsimp only
  split
  case isFalse =>
    rw [if_neg (by rw [hoff]; exact Bool.false_ne_true)]
    exact { h with peak_high := fun _ => hpeak }
  case isTrue hswitch =>
    have hpeaks : (t.peaksC ++ [max t.peakC tempC]).length = (times ++ [nowS]).length := by
      rw [List.length_append, List.length_append, h.peaks_length]
      rfl
    have hhigh : ∀ peak ∈ t.peaksC ++ [max t.peakC tempC], high t.cfg ≤ peak :=
      List.forall_mem_append.mpr ⟨h.peaks_high, List.forall_mem_singleton.mpr hpeak⟩
    have htroughs : t.troughsC.length = (times ++ [nowS]).length - 1 := by
      rw [hlength, List.length_append]
      rfl
    have hsome : times ++ [nowS] ≠ [] := List.append_ne_nil_of_right_ne_nil times (List.cons_ne_nil nowS [])
    have hspans : Spans (if t.haveOnSwitch then t.periodsS ++ [nowS - t.lastOnSwitchS] else t.periodsS)
        (times ++ [nowS]) nowS := by
      by_cases hhave : t.haveOnSwitch = true
      · rw [if_pos hhave]
        exact (h.spans (h.have_iff.mp hhave)).append nowS
      · have hnone : times = [] := not_not.mp fun hne => hhave (h.have_iff.mpr hne)
        rw [if_neg hhave, h.none_iff hnone, hnone]
        exact spans_first nowS
    by_cases hhave : t.haveOnSwitch = true
    all_goals
      first | rw [if_pos hhave] at hspans ⊢ | rw [if_neg hhave] at hspans ⊢
      exact {
        peaks_length := hpeaks
        troughs_length := htroughs
        first_iff := ⟨fun hno => absurd (hnotFirst.symm.trans hno) Bool.false_ne_true, fun hno => absurd hno.2 hsome⟩
        have_iff := ⟨fun _ => hsome, fun _ => rfl⟩
        none_iff := fun hno => absurd hno hsome
        spans := fun _ => hspans
        peaks_high := hhigh
        troughs_low := h.troughs_low
        peak_high := fun hno => Bool.noConfusion hno
        trough_low := fun _ _ => hswitch }

/-- The circle constant is positive. -/
theorem kPi_pos : 0 < kPi := by norm_num [kPi]

/-- A tune that finishes with enough cycles and is done has measured what it should. -/
theorem Collects.finish {t : PidAutoTuner} {times : List ℚ} (h : t.Collects times) (hon : t.relayOn = true)
    (hduty : 0 < t.cfg.relayDuty) (henough : (max 1 t.cfg.cycles).toNat ≤ t.troughsC.length) :
    t.finish.Agrees times := by
  have hcycles : max 1 t.cfg.cycles ≤ (t.troughsC.length : ℤ) := by omega
  have hone : 1 ≤ t.troughsC.length := by
    have := le_max_left 1 t.cfg.cycles
    omega
  have hlength := h.troughs_length
  rw [if_pos hon] at hlength
  have hne : times ≠ [] := by
    rintro rfl
    rw [List.length_nil] at hlength
    omega
  obtain ⟨hperiods, hlast, first, hfirst, hsum⟩ := h.spans hne
  have hcount : t.periodsS.length = t.troughsC.length := by omega
  have hpeaks : t.peaksC ≠ [] := by
    rw [← List.length_pos_iff, h.peaks_length]
    omega
  have hperiodsNe : t.periodsS ≠ [] := by
    rw [← List.length_pos_iff]
    omega
  have htroughsNe : t.troughsC ≠ [] := by
    rw [← List.length_pos_iff]
    omega
  have hamplitude : t.cfg.hysteresisC ≤ (mean t.peaksC - mean t.troughsC) / 2 := by
    have hhigh := le_mean hpeaks h.peaks_high
    have hlow := mean_le htroughsNe h.troughs_low
    unfold high at hhigh
    unfold low at hlow
    linarith
  have hmean : mean t.periodsS = (t.lastOnSwitchS - first) / t.periodsS.length := by
    rw [mean, if_neg hperiodsNe, hsum]
  unfold PidAutoTuner.finish
  dsimp only
  split
  case isTrue => exact ⟨fun hno => TunerState.noConfusion hno, fun hno => TunerState.noConfusion hno⟩
  case isFalse hlarge =>
    split
    case isTrue => exact ⟨fun hno => TunerState.noConfusion hno, fun hno => TunerState.noConfusion hno⟩
    case isFalse hslow =>
      have hsize : 1 / 20 ≤ (mean t.peaksC - mean t.troughsC) / 2 := not_lt.mp hlarge
      have htime : 5 ≤ mean t.periodsS := not_lt.mp hslow
      have hpi := kPi_pos
      have hku : 0 < 4 * (t.cfg.relayDuty / 2) / (kPi * ((mean t.peaksC - mean t.troughsC) / 2)) := by
        have hpos : 0 < (mean t.peaksC - mean t.troughsC) / 2 := by linarith
        positivity
      have htu : 0 < mean t.periodsS := by linarith
      refine ⟨fun hno => TunerState.noConfusion hno, fun _ => ?_⟩
      exact {
        peaks_length := by
          rw [h.peaks_length]
          exact hperiods.symm
        troughs_length := hcount.symm
        enough := hcycles
        peaks_high := h.peaks_high
        troughs_low := h.troughs_low
        amplitude_ge := ⟨hamplitude, hsize⟩
        amplitude_eq := rfl
        switches := hperiods.symm
        period_ge := htime
        period_eq := ⟨rfl, first, t.lastOnSwitchS, hfirst, hlast, hmean⟩
        gains_pos := ⟨hku, by positivity, by positivity, by positivity, by positivity, by positivity,
          by positivity⟩ }

/-- A tune that is not running or done agrees with anything. -/
theorem agrees_of_ended {t : PidAutoTuner} (hrunning : t.state ≠ .running) (hdone : t.state ≠ .done)
    (times : List ℚ) : t.Agrees times :=
  ⟨fun h => absurd h hrunning, fun h => absurd h hdone⟩

/-- A tune that fails agrees with anything. -/
theorem agrees_fail (t : PidAutoTuner) (reason : String) (times : List ℚ) : (t.fail reason).Agrees times :=
  agrees_of_ended (fun h => TunerState.noConfusion h) (fun h => TunerState.noConfusion h) times

/-- A measurement while heating leaves the tune running. -/
theorem tickOn_state (t : PidAutoTuner) (tempC : ℚ) : (t.tickOn tempC).state = t.state := by
  unfold PidAutoTuner.tickOn
  dsimp only
  split
  · split
    · rfl
    · rfl
  · rfl

/-- A measurement while cooling leaves the tune running, and sees enough cycles only as it switches the
relay on. -/
theorem tickOff_state (t : PidAutoTuner) (tempC nowS : ℚ) :
    (t.tickOff tempC nowS).1.state = t.state ∧
      ((t.tickOff tempC nowS).2 = true → (t.tickOff tempC nowS).1.relayOn = true ∧
        (max 1 t.cfg.cycles).toNat ≤ (t.tickOff tempC nowS).1.troughsC.length) := by
  unfold PidAutoTuner.tickOff
  dsimp only
  split
  case isFalse => exact ⟨rfl, fun h => Bool.noConfusion h⟩
  case isTrue =>
    split
    all_goals
      refine ⟨rfl, fun h => ⟨rfl, ?_⟩⟩
      simp only [Bool.and_eq_true, decide_eq_true_eq] at h
      exact h.1.2

/-- Working out the gains leaves the relay as it is. -/
theorem finish_relayOn (t : PidAutoTuner) : t.finish.relayOn = t.relayOn := by
  unfold PidAutoTuner.finish
  dsimp only
  split
  · rfl
  · split
    · rfl
    · rfl

/-- Every call keeps the agreement with the switches so far. -/
theorem Agrees.apply {t : PidAutoTuner} {times : List ℚ} (h : t.Agrees times) (hduty : 0 < t.cfg.relayDuty)
    (call : Call) : (t.apply call).Agrees (times ++ (t.onSwitch call).toList) := by
  cases call with
  | abort reason =>
    simp only [onSwitch, Option.toList_none, List.append_nil]
    change (t.abort reason).Agrees times
    unfold abort
    split
    · exact agrees_fail t reason times
    · exact h
  | tick tempValid tempC nowS =>
    simp only [PidAutoTuner.apply, onSwitch]
    unfold PidAutoTuner.tick
    split
    case isTrue hidle =>
      have hnone : (if !t.relayOn && t.relayOn then some nowS else none) = none := by
        rw [Bool.not_and_self, if_neg Bool.false_ne_true]
      rw [hnone, Option.toList_none, List.append_nil]
      exact h
    case isFalse hrunning =>
      have hcollects := h.1 (not_not.mp hrunning)
      split
      · exact agrees_fail t _ _
      split
      · exact agrees_fail t _ _
      split
      · exact agrees_fail t _ _
      · cases hrelay : t.relayOn with
        | true =>
          simp only [if_true, Bool.false_eq_true, if_false, Bool.not_true, Bool.false_and,
            Option.toList_none, List.append_nil]
          have hstate := (tickOn_state t tempC).trans (not_not.mp hrunning)
          exact ⟨fun _ => hcollects.tickOn hrelay tempC,
            fun hdone => absurd (hstate.symm.trans hdone) (fun hno => TunerState.noConfusion hno)⟩
        | false =>
          obtain ⟨hstate, hcomplete⟩ := tickOff_state t tempC nowS
          have hcfg := tickOff_cfg t tempC nowS
          have hnext := hcollects.tickOff hrelay tempC nowS
          rcases hoff : t.tickOff tempC nowS with ⟨after, complete⟩
          rw [hoff] at hstate hcomplete hcfg hnext
          have htimes : times ++ (if after.relayOn then some nowS else none).toList =
              if after.relayOn then times ++ [nowS] else times := by
            split
            · rfl
            · exact List.append_nil times
          simp only [Bool.false_eq_true, if_false, Bool.not_false, Bool.true_and]
          cases complete with
          | true =>
            obtain ⟨hon, henough⟩ := hcomplete rfl
            rw [if_pos rfl]
            simp only [finish_relayOn]
            rw [htimes]
            rw [← hcfg] at henough hduty
            exact hnext.finish hon hduty henough
          | false =>
            have hgoes := hstate.trans (not_not.mp hrunning)
            simp only [Bool.false_eq_true, if_false]
            rw [htimes]
            exact ⟨fun _ => hnext,
              fun hdone => absurd (hgoes.symm.trans hdone) (fun hno => TunerState.noConfusion hno)⟩

/-- A call keeps the settings. -/
theorem apply_cfg (t : PidAutoTuner) (call : Call) : (t.apply call).cfg = t.cfg := by
  cases call with
  | tick tempValid tempC nowS => exact (tick_spec t tempValid tempC nowS).1
  | abort reason => exact abort_cfg t reason

/-- What a call may do: a tick puts out nothing or the relay duty, and nothing when the tune does not
run behind it; and a tune that has ended stays so. -/
def Obeys (cfg : TunerConfig) (t : PidAutoTuner) (call : Call) : Prop :=
  (t.state ≠ .running → (t.apply call).state ≠ .running) ∧
    ∀ tempValid tempC nowS, call = .tick tempValid tempC nowS →
      ((t.tick tempValid tempC nowS).1 = 0 ∨ (t.tick tempValid tempC nowS).1 = cfg.relayDuty) ∧
        ((t.tick tempValid tempC nowS).2.state ≠ .running → (t.tick tempValid tempC nowS).1 = 0)

/-- A tick behind which the tune does not run puts out nothing. -/
theorem tick_of_ended (t : PidAutoTuner) (tempValid : Bool) (tempC nowS : ℚ)
    (h : (t.tick tempValid tempC nowS).2.state ≠ .running) : (t.tick tempValid tempC nowS).1 = 0 := by
  revert h
  unfold PidAutoTuner.tick
  split
  · exact fun _ => rfl
  case isFalse hrunning =>
    split
    · exact fun _ => rfl
    split
    · exact fun _ => rfl
    split
    · exact fun _ => rfl
    · have hstate : (if t.relayOn then (t.tickOn tempC, false) else t.tickOff tempC nowS).1.state = t.state := by
        split
        · exact tickOn_state t tempC
        · exact (tickOff_state t tempC nowS).1
      generalize (if t.relayOn then (t.tickOn tempC, false) else t.tickOff tempC nowS) = measured at hstate
      dsimp only
      split
      · exact fun _ => rfl
      · exact fun hended => absurd (hstate.trans (not_not.mp hrunning)) hended

/-- Every call does what it may. -/
theorem apply_obeys {cfg : TunerConfig} {t : PidAutoTuner} (hcfg : t.cfg = cfg) (call : Call) :
    t.Obeys cfg call := by
  subst hcfg
  refine ⟨fun hended => ?_, fun tempValid tempC nowS _ => ?_⟩
  · cases call with
    | tick tempValid tempC nowS =>
      rw [PidAutoTuner.apply, tick_of_not_active (decide_eq_false hended)]
      exact hended
    | abort reason =>
      rw [PidAutoTuner.apply, abort, if_neg hended]
      exact hended
  · exact ⟨(tick_spec t tempValid tempC nowS).2, tick_of_ended t tempValid tempC nowS⟩

/-- Along a run every call does what it may, the settings stay, and the tune agrees with the switches. -/
theorem run_agrees {cfg : TunerConfig} (hduty : 0 < cfg.relayDuty) {t : PidAutoTuner} {times : List ℚ}
    (hcfg : t.cfg = cfg) (h : t.Agrees times) (calls : List Call) :
    Meets PidAutoTuner.apply (fun t call => t.Obeys cfg call) t calls ∧
      (run PidAutoTuner.apply t calls).cfg = cfg ∧
      (run PidAutoTuner.apply t calls).Agrees (onSwitches t times calls) := by
  induction calls generalizing t times with
  | nil => exact ⟨trivial, hcfg, h⟩
  | cons call rest ih =>
    obtain ⟨hmeets, hrest⟩ := ih ((apply_cfg t call).trans hcfg) (h.apply (hcfg ▸ hduty) call)
    exact ⟨⟨apply_obeys hcfg call, hmeets⟩, hrest⟩

/-- A tune with a positive relay duty puts out nothing or that duty, and nothing from the call on that
ends it, over any calls; and one that is done has measured as many peaks, troughs and periods as it
should, each on its side of the band, and has positive gains. -/
theorem tune_measured {cfg : TunerConfig} (hduty : 0 < cfg.relayDuty) (nowS : ℚ) (calls : List Call) :
    Meets PidAutoTuner.apply (fun t call => t.Obeys cfg call) (start cfg nowS) calls ∧
      (run PidAutoTuner.apply (start cfg nowS) calls).cfg = cfg ∧
      ((run PidAutoTuner.apply (start cfg nowS) calls).state = .done →
        (run PidAutoTuner.apply (start cfg nowS) calls).Measured (onSwitches (start cfg nowS) [] calls)) := by
  have hstart : (start cfg nowS).Agrees [] :=
    ⟨fun _ => collects_start cfg nowS, fun hdone => TunerState.noConfusion hdone⟩
  obtain ⟨hmeets, hcfg, hagrees⟩ := run_agrees hduty rfl hstart calls
  exact ⟨hmeets, hcfg, hagrees.2⟩

/-- Two swings of four seconds each way around 40 °C. -/
def twoSwings : List Call :=
  [.tick true 41 4, .tick true 39 8, .tick true 41 12, .tick true 39 16]

/-- One cycle of these swings is enough for a tune that asks for one. -/
theorem tune_measured_twoSwings :
    (run PidAutoTuner.apply (start { cycles := 1 } 0) twoSwings).state = .done ∧
      (run PidAutoTuner.apply (start { cycles := 1 } 0) twoSwings).Measured
        (onSwitches (start { cycles := 1 } 0) [] twoSwings) := by
  have hdone : (run PidAutoTuner.apply (start { cycles := 1 } 0) twoSwings).state = .done := by decide +kernel
  exact ⟨hdone, (tune_measured (by decide +kernel) 0 twoSwings).2.2 hdone⟩

end PidAutoTuner

end Coatheal.Heater
