import Coatheal.Motion.Tmc5160

/-!
# When a stall stops the motor

A log of what bears on a stall, the speed reports and the load samples, gives
the samples of the present cruise: those since the last report that was not of
a cruise, but for the first, which still holds the end of the ramp. A step asks
for the stop exactly when enough low samples in a row have come. It then leaves
the target where it was, or at the zero of a chip that was found reset.
-/

namespace Coatheal.Motion

open Coatheal.Library

variable {K β : Type*} [Field K] [LinearOrder K] [FloorRing K]

/-- What bears on a stall: a report of the speed, which is of a cruise or not, and a load sample. -/
inductive Sight where
  | report (cruising : Bool)
  | sample (sg : ℤ)
deriving DecidableEq, Repr

namespace Sight

/-- The load of a sample. -/
def load : Sight → Option ℤ
  | .report _ => none
  | .sample sg => some sg

/-- The samples since the last report that was not of a cruise, the newest first. -/
def sinceCruise (log : List Sight) : List ℤ :=
  (log.takeWhile fun s => decide (s ≠ .report false)).filterMap load

/-- The samples of the present cruise behind the settle time, the newest first. -/
def settled (log : List Sight) : List ℤ := (sinceCruise log).dropLast

/-- How many samples in a row, up to the newest, are low. -/
def lowRun (stallSgMin : ℤ) (log : List Sight) : ℕ :=
  ((settled log).takeWhile fun sg => decide (sg ≤ stallSgMin)).length

/-- The low samples in a row confirm a stall: they are as many as have to, or, when the move went on
after a stop was asked for, as many again. -/
def Confirms (cfg : Tmc5160Config K) (log : List Sight) : Prop :=
  0 < lowRun cfg.stallSgMin log ∧ cfg.stallConfirmSamples ∣ (lowRun cfg.stallSgMin log : ℤ)

/-- The newest report is of a cruise. -/
def cruising : List Sight → Bool
  | [] => false
  | .report cruising :: _ => cruising
  | .sample _ :: log => cruising log

/-- A report that is not of a cruise leaves no samples. -/
@[simp]
theorem sinceCruise_report_false (log : List Sight) : sinceCruise (.report false :: log) = [] := rfl

/-- A report of a cruise changes nothing. -/
@[simp]
theorem sinceCruise_report_true (log : List Sight) : sinceCruise (.report true :: log) = sinceCruise log := rfl

/-- A sample is the newest. -/
@[simp]
theorem sinceCruise_sample (sg : ℤ) (log : List Sight) :
    sinceCruise (.sample sg :: log) = sg :: sinceCruise log := rfl

/-- A sample behind the settle time extends the run when it is low and ends it when it is not. -/
theorem lowRun_sample {log : List Sight} (h : sinceCruise log ≠ []) (stallSgMin sg : ℤ) :
    lowRun stallSgMin (.sample sg :: log) = if sg ≤ stallSgMin then lowRun stallSgMin log + 1 else 0 := by
  have hsettled : settled (.sample sg :: log) = sg :: settled log := by
    rw [settled, sinceCruise_sample, List.dropLast_cons_of_ne_nil h, settled]
  rw [lowRun, hsettled, List.takeWhile_cons]
  split
  case isTrue hlow =>
    rw [if_pos (of_decide_eq_true hlow)]
    rfl
  case isFalse hhigh =>
    rw [if_neg fun hlow => hhigh (decide_eq_true hlow)]
    rfl

/-- The first sample of a cruise is within the settle time. -/
theorem lowRun_first {log : List Sight} (h : sinceCruise log = []) (stallSgMin sg : ℤ) :
    lowRun stallSgMin (.sample sg :: log) = 0 := by
  rw [lowRun, settled, sinceCruise_sample, h]
  rfl

/-- Without samples there is no run. -/
theorem lowRun_of_nil {log : List Sight} (h : sinceCruise log = []) (stallSgMin : ℤ) :
    lowRun stallSgMin log = 0 := by
  rw [lowRun, settled, h]
  rfl

end Sight

namespace StallSampling

/-- A report is of a cruise when the rate is positive, steady and fast enough, with StallGuard on and
the chopper it needs. -/
def cruises (cfg : Tmc5160Config K) (fullStepHz : K) (steady : Bool) : Bool :=
  decide (fullStepHz > 0) && (decide (cfg.stallDetect ≠ .off) && !cfg.stealthChop && steady &&
    decide (fullStepHz ≥ cfg.stallMinStepHz))

/-- The sampling after a load sample, and whether it asks for the stop; the policy is to stop. -/
def heard (cfg : Tmc5160Config K) (s : StallSampling K) (sg : ℤ) : Bool × StallSampling K :=
  if s.sgSettleSamples > 0 then (false, { s with sgSettleSamples := s.sgSettleSamples - 1 })
  else
    let s := s.counted cfg sg
    if s.sgLowRun = cfg.stallConfirmSamples then
      (true, { s with stallVerdicts := s.stallVerdicts + 1, sgLowRun := 0 })
    else (false, s)

/-- The sampling agrees with the log: it is active when the newest report is of a cruise, and then the
settle time is over once a sample has come and the low samples are counted from the last stop. -/
structure Agrees (cfg : Tmc5160Config K) (s : StallSampling K) (log : List Sight) : Prop where
  active_eq : s.active cfg = Sight.cruising log
  open_of_active : s.active cfg = true → s.moveOpen = true
  none_of_idle : s.active cfg = false → Sight.sinceCruise log = []
  settle_eq : s.active cfg = true → s.sgSettleSamples = if Sight.sinceCruise log = [] then 1 else 0
  lowRun_eq : s.sgLowRun = (Sight.lowRun cfg.stallSgMin log : ℤ) % cfg.stallConfirmSamples

/-- What the agreement depends on is the same. -/
structure SameCount (s after : StallSampling K) : Prop where
  stepRateHz : after.stepRateHz = s.stepRateHz
  stepRateSteady : after.stepRateSteady = s.stepRateSteady
  moveOpen : after.moveOpen = s.moveOpen
  sgSettleSamples : after.sgSettleSamples = s.sgSettleSamples
  sgLowRun : after.sgLowRun = s.sgLowRun

omit [Field K] [FloorRing K] in
/-- The same rate is as active. -/
theorem active_congr (cfg : Tmc5160Config K) {s after : StallSampling K}
    (hrate : after.stepRateHz = s.stepRateHz) (hsteady : after.stepRateSteady = s.stepRateSteady) :
    after.active cfg = s.active cfg := by
  simp only [active, hrate, hsteady]

omit [Field K] [FloorRing K] in
/-- The agreement carries over to a sampling with the same counts. -/
theorem Agrees.congr {cfg : Tmc5160Config K} {s after : StallSampling K} {log : List Sight}
    (h : Agrees cfg s log) (hsame : SameCount s after) : Agrees cfg after log := by
  have hactive := active_congr cfg hsame.stepRateHz hsame.stepRateSteady
  refine ⟨?_, ?_, ?_, ?_, ?_⟩
  · rw [hactive, h.active_eq]
  · rw [hactive, hsame.moveOpen]
    exact h.open_of_active
  · rw [hactive]
    exact h.none_of_idle
  · rw [hactive, hsame.sgSettleSamples]
    exact h.settle_eq
  · rw [hsame.sgLowRun, h.lowRun_eq]

omit [FloorRing K] in
/-- Nothing is known at first. -/
theorem agrees_new (cfg : Tmc5160Config K) : Agrees cfg (new : StallSampling K) [] := by
  have hidle : (new : StallSampling K).active cfg = false := by simp [active, new]
  refine ⟨hidle, fun h => ?_, fun _ => rfl, fun h => ?_, ?_⟩
  · rw [hidle] at h
    cases h
  · rw [hidle] at h
    cases h
  · simp [new, Sight.lowRun, Sight.settled, Sight.sinceCruise]

omit [Field K] [FloorRing K] in
/-- Whether a step takes a sample leaves the counts as they are, and it takes one only in a cruise. -/
theorem due_spec (cfg : Tmc5160Config K) (s : StallSampling K) (microstep : ℤ) :
    SameCount s (s.due cfg microstep).2 ∧ ((s.due cfg microstep).1 = true → s.active cfg = true) := by
  unfold due
  split
  case isTrue hactive =>
    dsimp only
    split
    · exact ⟨⟨rfl, rfl, rfl, rfl, rfl⟩, fun _ => hactive⟩
    · exact ⟨⟨rfl, rfl, rfl, rfl, rfl⟩, fun h => nomatch h⟩
  case isFalse => exact ⟨⟨rfl, rfl, rfl, rfl, rfl⟩, fun h => nomatch h⟩

omit [Field K] [FloorRing K] in
/-- Outside a cruise no low samples are counted. -/
theorem Agrees.lowRun_of_idle {cfg : Tmc5160Config K} {s : StallSampling K} {log : List Sight}
    (h : Agrees cfg s log) (hidle : s.active cfg = false) : s.sgLowRun = 0 := by
  rw [h.lowRun_eq, Sight.lowRun_of_nil (h.none_of_idle hidle)]
  exact Int.zero_emod _

omit [Field K] [FloorRing K] in
/-- A report outside a cruise is taken in by a sampling that is idle and counts nothing. -/
theorem agrees_report_false {cfg : Tmc5160Config K} {s : StallSampling K} (log : List Sight)
    (hidle : s.active cfg = false) (hlow : s.sgLowRun = 0) : Agrees cfg s (.report false :: log) where
  active_eq := hidle
  open_of_active h := by rw [hidle] at h; cases h
  none_of_idle _ := rfl
  settle_eq h := by rw [hidle] at h; cases h
  lowRun_eq := by
    rw [hlow, Sight.lowRun_of_nil (Sight.sinceCruise_report_false log)]
    exact (Int.zero_emod _).symm

omit [FloorRing K] in
/-- A speed report is taken in as the log has it. -/
theorem Agrees.noteStepRate {cfg : Tmc5160Config K} {s : StallSampling K} {log : List Sight}
    (h : Agrees cfg s log) (fullStepHz : K) (steady : Bool) :
    Agrees cfg (s.noteStepRate cfg fullStepHz steady) (.report (cruises cfg fullStepHz steady) :: log) := by
  unfold StallSampling.noteStepRate
  by_cases hpos : fullStepHz > 0
  case neg =>
    rw [if_pos hpos]
    have hcruises : cruises cfg fullStepHz steady = false := by simp [cruises, hpos]
    rw [hcruises]
    exact agrees_report_false log (by simp [active]) rfl
  case pos =>
    rw [if_neg (not_not.mpr hpos)]
    extract_lets opened wasActive told nowActive
    -- a move is opened only when none is, and then nothing has been counted
    obtain ⟨hopen, hwas, hsettle, hlow⟩ : opened.moveOpen = true ∧ wasActive = s.active cfg ∧
        opened.sgSettleSamples = s.sgSettleSamples ∧ opened.sgLowRun = s.sgLowRun := by
      by_cases hmove : s.moveOpen = true
      · have hsame : opened = s := if_neg (not_not.mpr hmove)
        exact ⟨by rw [hsame, hmove], by simp only [wasActive, hsame], by rw [hsame], by rw [hsame]⟩
      · have hidle : s.active cfg = false := Bool.eq_false_iff.mpr fun hactive => hmove (h.open_of_active hactive)
        have hfresh : opened = { s with
            moveOpen := true, sgSamples := 0, sgLast := 0, sgMin := 0, sgLowRun := 0, stepsSinceSgSample := 0 } :=
          if_pos hmove
        refine ⟨by rw [hfresh], ?_, by rw [hfresh], by rw [hfresh, h.lowRun_of_idle hidle]⟩
        simp only [wasActive, hfresh]
        exact active_congr cfg rfl rfl
    have hnow : nowActive = cruises cfg fullStepHz steady := by
      simp only [nowActive, told, active, cruises, hpos, decide_true, Bool.true_and]
    rw [← hnow]
    cases hcase : nowActive with
    | false =>
      simp only [Bool.false_and, Bool.not_false, Bool.false_eq_true, if_false, if_true]
      exact agrees_report_false log hcase rfl
    | true =>
      cases hbefore : wasActive with
      | false =>
        have hnone := h.none_of_idle (hwas.symm.trans hbefore)
        simp only [Bool.not_false, Bool.and_self, if_true]
        refine ⟨hcase, fun _ => hopen, fun hidle => ?_, fun _ => by simp [hnone], ?_⟩
        · exact absurd (hidle.symm.trans hcase) Bool.false_ne_true
        · rw [Sight.lowRun_of_nil (by simpa using hnone)]
          exact (Int.zero_emod _).symm
      | true =>
        have hactive := hwas.symm.trans hbefore
        simp only [Bool.not_true, Bool.and_false, Bool.false_eq_true, if_false]
        refine ⟨hcase, fun _ => hopen, fun hidle => ?_, fun _ => ?_, ?_⟩
        · exact absurd (hidle.symm.trans hcase) Bool.false_ne_true
        · exact hsettle.trans (h.settle_eq hactive)
        · exact hlow.trans h.lowRun_eq

/-- The remainder counts up to the modulus and starts again at its multiples. -/
theorem emod_add_one {n modulus : ℤ} (hmodulus : 1 ≤ modulus) :
    (n % modulus + 1 = modulus ↔ modulus ∣ n + 1) ∧
      (n + 1) % modulus = if n % modulus + 1 = modulus then 0 else n % modulus + 1 := by
  have hnonneg := Int.emod_nonneg n (by omega : modulus ≠ 0)
  have hless := Int.emod_lt_of_pos n (by omega : 0 < modulus)
  have hnext : (n + 1) % modulus = if n % modulus + 1 = modulus then 0 else n % modulus + 1 := by
    rw [← Int.emod_add_emod]
    split
    case isTrue hfull => rw [hfull, Int.emod_self]
    case isFalse hpart => exact Int.emod_eq_of_lt (by omega) (by omega)
  refine ⟨?_, hnext⟩
  rw [Int.dvd_iff_emod_eq_zero, hnext]
  split
  case isTrue hfull => exact ⟨fun _ => rfl, fun _ => hfull⟩
  case isFalse hpart => exact ⟨fun hfull => absurd hfull hpart, fun hzero => by omega⟩

omit [Field K] [FloorRing K] in
/-- A load sample in a cruise asks for the stop exactly when the log with it confirms a stall, and is
taken in as the log has it. -/
theorem Agrees.heard {cfg : Tmc5160Config K} {s : StallSampling K} {log : List Sight}
    (h : Agrees cfg s log) (hconfirm : 1 ≤ cfg.stallConfirmSamples) (hactive : s.active cfg = true) (sg : ℤ) :
    ((s.heard cfg sg).1 = true ↔ Sight.Confirms cfg (.sample sg :: log)) ∧
      Agrees cfg (s.heard cfg sg).2 (.sample sg :: log) := by
  have hsettle := h.settle_eq hactive
  unfold StallSampling.heard
  by_cases hfirst : Sight.sinceCruise log = []
  case pos =>
    rw [if_pos hfirst] at hsettle
    have hnone := Sight.lowRun_first hfirst cfg.stallSgMin sg
    rw [if_pos (by omega)]
    refine ⟨?_, ?_⟩
    · simp [Sight.Confirms, hnone]
    · refine ⟨h.active_eq, h.open_of_active, fun hidle => ?_, fun _ => by simp [hsettle], ?_⟩
      · exact absurd (hidle.symm.trans hactive) Bool.false_ne_true
      · have hlow := h.lowRun_eq
        rw [Sight.lowRun_of_nil hfirst] at hlow
        rw [hnone]
        exact hlow
  case neg =>
    rw [if_neg hfirst] at hsettle
    have hrun := Sight.lowRun_sample hfirst cfg.stallSgMin sg
    rw [if_neg (by omega)]
    extract_lets counted
    have hcounted : counted.sgLowRun =
        if sg ≤ cfg.stallSgMin then (Sight.lowRun cfg.stallSgMin log : ℤ) % cfg.stallConfirmSamples + 1 else 0 := by
      simp only [counted, StallSampling.counted, h.lowRun_eq]
    have hsettled : counted.sgSettleSamples =
        if Sight.sinceCruise (.sample sg :: log) = [] then 1 else 0 := by
      rw [if_neg (by simp)]
      exact hsettle
    have hkeeps (last : ℤ) (verdicts : ℕ)
        (hlast : last = (Sight.lowRun cfg.stallSgMin (.sample sg :: log) : ℤ) % cfg.stallConfirmSamples) :
        Agrees cfg { counted with stallVerdicts := verdicts, sgLowRun := last } (.sample sg :: log) :=
      ⟨h.active_eq, h.open_of_active, fun hidle => absurd (hidle.symm.trans hactive) Bool.false_ne_true,
        fun _ => hsettled, hlast⟩
    obtain ⟨hfull, hnext⟩ := emod_add_one (n := Sight.lowRun cfg.stallSgMin log) hconfirm
    by_cases hlow : sg ≤ cfg.stallSgMin
    · rw [if_pos hlow] at hrun hcounted
      rw [Sight.Confirms, hrun]
      push_cast
      rw [← hcounted] at hfull hnext
      by_cases hstop : counted.sgLowRun = cfg.stallConfirmSamples
      · rw [if_pos hstop]
        refine ⟨⟨fun _ => ⟨Nat.succ_pos _, hfull.mp hstop⟩, fun _ => rfl⟩, hkeeps 0 _ ?_⟩
        rw [hrun]
        push_cast
        rw [hnext, if_pos hstop]
      · rw [if_neg hstop]
        refine ⟨⟨fun hno => Bool.noConfusion hno, fun hall => absurd (hfull.mpr hall.2) hstop⟩,
          hkeeps counted.sgLowRun counted.stallVerdicts ?_⟩
        rw [hrun]
        push_cast
        rw [hnext, if_neg hstop]
    · rw [if_neg hlow] at hrun hcounted
      rw [if_neg (by omega)]
      refine ⟨⟨fun hno => Bool.noConfusion hno, fun hall => ?_⟩, hkeeps counted.sgLowRun counted.stallVerdicts ?_⟩
      · exact absurd hall.1 (by omega)
      · rw [hcounted, hrun]
        exact (Int.zero_emod _).symm

end StallSampling

namespace ChipSide

/-- Some registers were written, and nothing else happened that a stop or a step leaves behind. -/
structure Wrote (c after : ChipSide K β) (new : List (Register × BitVec 32)) : Prop where
  stopRequests : after.stopRequests = c.stopRequests
  pulses : after.pulses = c.pulses
  resetCount : after.resetCount = c.resetCount
  written : after.written = c.written ++ new

/-- The target was written at most as the zero of a new configuration. -/
def Zeroes (new : List (Register × BitVec 32)) : Prop := ∀ value, (Register.xtarget, value) ∈ new → value = 0#32

omit [Field K] [LinearOrder K] [FloorRing K] in
/-- What was written in two parts. -/
theorem Wrote.trans {c middle after : ChipSide K β} {first second : List (Register × BitVec 32)}
    (hfirst : Wrote c middle first) (hsecond : Wrote middle after second) : Wrote c after (first ++ second) where
  stopRequests := hsecond.stopRequests.trans hfirst.stopRequests
  pulses := hsecond.pulses.trans hfirst.pulses
  resetCount := hsecond.resetCount.trans hfirst.resetCount
  written := by rw [hsecond.written, hfirst.written, List.append_assoc]

omit [Field K] [LinearOrder K] [FloorRing K] in
/-- Something else than these changed. -/
theorem Wrote.other {c middle after : ChipSide K β} {new : List (Register × BitVec 32)}
    (h : Wrote c middle new) (hstop : after.stopRequests = middle.stopRequests)
    (hpulses : after.pulses = middle.pulses) (hreset : after.resetCount = middle.resetCount)
    (hwritten : after.written = middle.written) : Wrote c after new :=
  ⟨hstop.trans h.stopRequests, hpulses.trans h.pulses, hreset.trans h.resetCount, hwritten.trans h.written⟩

omit [Field K] [LinearOrder K] [FloorRing K] in
/-- Nothing was written. -/
theorem wrote_refl (c : ChipSide K β) : Wrote c c [] := ⟨rfl, rfl, rfl, (List.append_nil _).symm⟩

omit [Field K] [LinearOrder K] [FloorRing K] in
/-- Reading writes nothing. -/
theorem readRegister_wrote (platform : ChipPlatform K β) (c : ChipSide K β) (register : Register) :
    Wrote c (c.readRegister platform register).2 [] := by
  unfold readRegister
  split
  · exact (wrote_refl c).other rfl rfl rfl rfl
  · exact (wrote_refl c).other rfl rfl rfl rfl

omit [Field K] [LinearOrder K] [FloorRing K] in
/-- A write is recorded whether it succeeds or not. -/
theorem writeRegister_wrote (platform : ChipPlatform K β) (c : ChipSide K β) (register : Register)
    (value : BitVec 32) : Wrote c (c.writeRegister platform register value).2 [(register, value)] := by
  unfold writeRegister
  dsimp only
  split
  · exact ⟨rfl, rfl, rfl, rfl⟩
  · exact ⟨rfl, rfl, rfl, rfl⟩

omit [Field K] [LinearOrder K] [FloorRing K] in
/-- A list of writes is carried out up to a point. -/
theorem writeRegisters_wrote (platform : ChipPlatform K β) (entries : List (Register × BitVec 32))
    (c : ChipSide K β) : ∃ new, new <+: entries ∧ Wrote c (writeRegisters platform entries c).2 new := by
  induction entries generalizing c with
  | nil => exact ⟨[], List.prefix_rfl, wrote_refl c⟩
  | cons entry rest ih =>
    obtain ⟨register, value⟩ := entry
    have hentry := writeRegister_wrote platform c register value
    rw [writeRegisters]
    split
    case h_1 failed hfailed =>
      rw [hfailed] at hentry
      exact ⟨[(register, value)], by simp, hentry.other rfl rfl rfl rfl⟩
    case h_2 done hdone =>
      rw [hdone] at hentry
      obtain ⟨new, hprefix, hnew⟩ := ih done
      exact ⟨(register, value) :: new, List.cons_prefix_cons.mpr ⟨rfl, hprefix⟩, hentry.trans hnew⟩

omit [Field K] [LinearOrder K] [FloorRing K] in
/-- Reading back writes nothing. -/
theorem verifyRegisters_wrote (platform : ChipPlatform K β) (entries : List (Register × BitVec 32))
    (c : ChipSide K β) : Wrote c (verifyRegisters platform entries c).2 [] := by
  induction entries generalizing c with
  | nil => exact wrote_refl c
  | cons entry rest ih =>
    obtain ⟨register, value⟩ := entry
    have hentry := readRegister_wrote platform c register
    rw [verifyRegisters]
    split
    case h_1 failed hfailed =>
      rw [hfailed] at hentry
      exact hentry.other rfl rfl rfl rfl
    case h_2 held done hdone =>
      rw [hdone] at hentry
      split
      · exact hentry.trans (ih done)
      · exact hentry.other rfl rfl rfl rfl

omit [Field K] [LinearOrder K] [FloorRing K] in
/-- A configuration has the target at zero. -/
theorem configuration_zeroes (cfg : Tmc5160Config K) (c : ChipSide K β) (scale : CurrentScale) :
    Zeroes (configuration cfg c scale) := by
  intro value hmem
  simpa [configuration] using hmem

omit [Field K] [LinearOrder K] [FloorRing K] in
/-- A configuration, complete or not, writes the target at most as zero. -/
theorem configure_wrote (platform : ChipPlatform K β) (cfg : Tmc5160Config K) (c : ChipSide K β)
    (scale : CurrentScale) : ∃ new, Zeroes new ∧ Wrote c (configure platform cfg c scale).2 new := by
  obtain ⟨new, hprefix, hnew⟩ := writeRegisters_wrote platform (configuration cfg c scale) c
  have hzeroes : Zeroes new := fun value hmem =>
    configuration_zeroes cfg c scale value ( hprefix.subset hmem)
  unfold configure
  split
  case h_1 failed hfailed =>
    rw [hfailed] at hnew
    exact ⟨new, hzeroes, hnew⟩
  case h_2 written hwritten =>
    rw [hwritten] at hnew
    have hverify := verifyRegisters_wrote platform [(.gconf, gconf cfg), (.chopconf, c.chopconf)]
      { written with target := 0 }
    have hzero : Wrote c { written with target := 0 } new := hnew.other rfl rfl rfl rfl
    have hread := hzero.trans hverify
    rw [List.append_nil] at hread
    split
    case h_1 failed hfailed =>
      rw [hfailed] at hread
      exact ⟨new, hzeroes, hread⟩
    case h_2 verified hverified =>
      rw [hverified] at hread
      have hclear := hread.trans (writeRegister_wrote platform verified .gstat 7#32)
      have hboth : Zeroes (new ++ [(Register.gstat, 7#32)]) := by
        intro value hmem
        rcases List.mem_append.mp hmem with hmem | hmem
        · exact hzeroes value hmem
        · simp at hmem
      refine ⟨_, hboth, ?_⟩
      split
      case h_1 failed hfailed =>
        rw [hfailed] at hclear
        exact hclear.other rfl rfl rfl rfl
      case h_2 done hdone =>
        rw [hdone] at hclear
        exact hclear.other rfl rfl rfl rfl

/-- So does the probe with the configuration that follows it. -/
theorem reinitialize_wrote (platform : ChipPlatform K β) (cfg : Tmc5160Config K) (c : ChipSide K β) :
    ∃ new, Zeroes new ∧ Wrote c ( reinitialize platform cfg c).2 new := by
  have hnone : Zeroes [] := fun value hmem => nomatch hmem
  unfold reinitialize
  split
  · exact ⟨[], hnone, (wrote_refl c).other rfl rfl rfl rfl⟩
  case h_2 after _ =>
    dsimp only
    split
    · exact ⟨[], hnone, (wrote_refl c).other rfl rfl rfl rfl⟩
    · have hbus : Wrote c { c with bus := after } [] := (wrote_refl c).other rfl rfl rfl rfl
      have hread := hbus.trans (readRegister_wrote platform { c with bus := after } .ioin)
      split
      case h_1 failed hfailed =>
        rw [hfailed] at hread
        exact ⟨[], hnone, hread.other rfl rfl rfl rfl⟩
      case h_2 ioin probed hprobed =>
        rw [hprobed] at hread
        split
        · exact ⟨[], hnone, hread.other rfl rfl rfl rfl⟩
        · split
          · exact ⟨[], hnone, hread.other rfl rfl rfl rfl⟩
          case h_2 scale _ =>
            obtain ⟨new, hzeroes, hnew⟩ := configure_wrote platform cfg probed scale
            exact ⟨new, hzeroes, hread.trans hnew⟩

/-- A look for a reset leaves no request to stop and no pulse, and the target at most at the zero of a
chip that was found reset. -/
structure Recovered (c after : ChipSide K β) (new : List (Register × BitVec 32)) : Prop where
  stopRequests : after.stopRequests = c.stopRequests
  pulses : after.pulses = c.pulses
  written : after.written = c.written ++ new
  zeroes : ∀ value, (Register.xtarget, value) ∈ new → value = 0#32 ∧ after.resetCount = c.resetCount + 1

omit [Field K] [LinearOrder K] [FloorRing K] in
/-- What only wrote other registers. -/
theorem Wrote.recovered {c after : ChipSide K β} {new : List (Register × BitVec 32)} (h : Wrote c after new)
    (hnone : ∀ entry ∈ new, entry.1 ≠ .xtarget) : Recovered c after new :=
  ⟨h.stopRequests, h.pulses, h.written, fun _ hmem => absurd rfl (hnone _ hmem)⟩

omit [Field K] [LinearOrder K] [FloorRing K] in
/-- The supply flags are counted without a request to stop. -/
theorem noteGstat_wrote (c : ChipSide K β) (gstat : BitVec 32) : Wrote c (c.noteGstat gstat) [] := by
  unfold noteGstat
  dsimp only
  split
  · split
    · exact (wrote_refl c).other rfl rfl rfl rfl
    · exact (wrote_refl c).other rfl rfl rfl rfl
  · exact (wrote_refl c).other rfl rfl rfl rfl

/-- The look for a reset and the recovery from it. -/
theorem recoverFromChipReset_spec (platform : ChipPlatform K β) (cfg : Tmc5160Config K) (c : ChipSide K β)
    (found : Found) : ∃ new, Recovered c (c.recoverFromChipReset platform cfg found).2 new := by
  have hread := readRegister_wrote platform c .gstat
  unfold recoverFromChipReset
  split
  case h_1 failed hfailed =>
    rw [hfailed] at hread
    have hfailing : Wrote c failed.unhealthy [] := hread.other rfl rfl rfl rfl
    exact ⟨[], hfailing.recovered fun _ hmem => nomatch hmem⟩
  case h_2 gstat middle hmiddle =>
    rw [hmiddle] at hread
    split
    case isTrue =>
      have hnoted := hread.trans (noteGstat_wrote middle gstat)
      dsimp only
      split
      case isTrue =>
        have hwrite := hnoted.trans (writeRegister_wrote platform (middle.noteGstat gstat) .gstat (gstat &&& 6#32))
        refine ⟨[(.gstat, gstat &&& 6#32)], Wrote.recovered ?_ ?_⟩
        · split
          case h_1 failed hfailed =>
            rw [hfailed] at hwrite
            exact hwrite.other rfl rfl rfl rfl
          case h_2 done hdone =>
            rw [hdone] at hwrite
            exact hwrite
        · simp
      case isFalse => exact ⟨_, hnoted.recovered fun _ hmem => nomatch hmem⟩
    case isFalse =>
      obtain ⟨new, hzeroes, hnew⟩ :=
        reinitialize_wrote platform cfg { middle with resetCount := middle.resetCount + 1 }
      have hsame : middle.written = c.written := hread.written.trans (List.append_nil _)
      have hreset {after : ChipSide K β}
          (h : Wrote { middle with resetCount := middle.resetCount + 1 } after new) : Recovered c after new :=
        ⟨h.stopRequests.trans hread.stopRequests, h.pulses.trans hread.pulses,
          h.written.trans (congrArg (· ++ new) hsame),
          fun value hmem => ⟨hzeroes value hmem, h.resetCount.trans (congrArg (· + 1) hread.resetCount)⟩⟩
      refine ⟨new, ?_⟩
      split
      case h_1 failed hfailed =>
        rw [hfailed] at hnew
        exact hreset (hnew.other rfl rfl rfl rfl)
      case h_2 restored hrestored =>
        rw [hrestored] at hnew
        dsimp only
        split
        · exact hreset (hnew.other rfl rfl rfl rfl)
        · exact hreset (hnew.other rfl rfl rfl rfl)

omit [Field K] [LinearOrder K] [FloorRing K] in
/-- While the motor steps, no driver status but a stall asks for the stop. -/
theorem noteDriverStatus_stepping (c : ChipSide K β) (drv : BitVec 32) :
    Wrote c (c.noteDriverStatus true drv) [] := by
  unfold noteDriverStatus
  extract_lets otpw ot heat short counted shorted latched cleared explained openLoad
  have hshorted : Wrote c shorted [] := by
    simp only [shorted]
    split
    · split
      · exact (wrote_refl c).other rfl rfl rfl rfl
      · exact (wrote_refl c).other rfl rfl rfl rfl
    · exact (wrote_refl c).other rfl rfl rfl rfl
  have hexplained : Wrote c explained [] := by
    simp only [explained]
    split
    · split
      · exact hshorted.other rfl rfl rfl rfl
      · exact hshorted.other rfl rfl rfl rfl
    · exact hshorted.other rfl rfl rfl rfl
  rw [if_pos rfl]
  exact hexplained.other rfl rfl rfl rfl

end ChipSide

namespace Tmc5160Driver

/-- The load in the driver status, if it can be read and shows no short. -/
def statusLoad (platform : ChipPlatform K β) (d : Tmc5160Driver K β) : Option ℤ :=
  match (d.chip.readRegister platform .drvStatus).1 with
  | none => none
  | some drv => if ChipSide.shortNow drv then none else some (sgResult drv)

/-- The load a step would take as a sample, if it gets as far. -/
def stallSample (platform : ChipPlatform K β) (d : Tmc5160Driver K β) : Option ℤ :=
  if ¬ d.chip.healthy ∨ ¬ d.chip.enabled then none
  else if d.chip.shortActive then none
  else
    let (sample, supervise, begun) := d.beginStep
    match begun.superviseStep platform supervise with
    | (false, _) => none
    | (true, supervised) => if sample then supervised.statusLoad platform else none

/-- What a call adds to the log. -/
def sight (platform : ChipPlatform K β) (d : Tmc5160Driver K β) : Call K → Option Sight
  | .noteStepRate fullStepHz steady => some (.report (StallSampling.cruises d.cfg fullStepHz steady))
  | .step _ => (d.stallSample platform).map .sample
  | _ => none

/-- The log of some calls on top of the log before them, the newest first. -/
def logged (platform : ChipPlatform K β) : Tmc5160Driver K β → List Sight → List (Call K) → List Sight
  | _, log, [] => log
  | d, log, call :: rest =>
    logged platform (d.apply platform call) ((d.sight platform call).toList ++ log) rest

/-- Neither the settings nor the sampling nor the requests changed. -/
structure Keeps (d after : Tmc5160Driver K β) : Prop where
  cfg_eq : after.cfg = d.cfg
  sampling_eq : after.sampling = d.sampling
  stop_eq : after.chip.stopRequests = d.chip.stopRequests

/-- A stop was requested, the step was not counted, and the target was written at most as the zero of a
chip that was found reset. -/
structure Stopped (d after : Tmc5160Driver K β) : Prop where
  requested : after.chip.stopRequests = d.chip.stopRequests + 1
  raised : after.chip.stepLossStop = true
  pulses_eq : after.chip.pulses = d.chip.pulses
  target_kept : ∃ new, after.chip.written = d.chip.written ++ new ∧
    ∀ value, (Register.xtarget, value) ∈ new →
      value = 0#32 ∧ after.chip.resetCount = d.chip.resetCount + 1

omit [Field K] [LinearOrder K] [FloorRing K] in
/-- What keeps twice keeps. -/
theorem Keeps.trans {d middle after : Tmc5160Driver K β} (hfirst : Keeps d middle)
    (hsecond : Keeps middle after) : Keeps d after :=
  ⟨hsecond.cfg_eq.trans hfirst.cfg_eq, hsecond.sampling_eq.trans hfirst.sampling_eq,
    hsecond.stop_eq.trans hfirst.stop_eq⟩

omit [Field K] [LinearOrder K] [FloorRing K] in
/-- Under the stop policy a sample refuses the step exactly when it asks for the stop. -/
theorem sampleStallguard_eq {d : Tmc5160Driver K β} (hstop : d.cfg.stallDetect = .stop) (drv : BitVec 32) :
    d.sampleStallguard drv =
      (!(d.sampling.heard d.cfg (sgResult drv)).1,
        { d with
          chip :=
            if (d.sampling.heard d.cfg (sgResult drv)).1 then
              d.chip.recordStepLoss (.stall (sgResult drv) d.sampling.stepRateHz) true
            else d.chip
          sampling := (d.sampling.heard d.cfg (sgResult drv)).2 }) := by
  unfold sampleStallguard StallSampling.heard
  split
  · rfl
  · dsimp only
    split
    · rfl
    · rfl

omit [Field K] [LinearOrder K] [FloorRing K] in
/-- A look at the driver status without a sample keeps everything while the motor steps. -/
theorem checkDriverStatus_keeps (platform : ChipPlatform K β) (d : Tmc5160Driver K β) :
    Keeps d (d.checkDriverStatus platform true false).2 := by
  have hread := ChipSide.readRegister_wrote platform d.chip .drvStatus
  unfold checkDriverStatus
  split
  case h_1 after hafter =>
    rw [hafter] at hread
    exact ⟨rfl, rfl, hread.stopRequests⟩
  case h_2 drv after hafter =>
    rw [hafter] at hread
    have hnoted := hread.trans (ChipSide.noteDriverStatus_stepping after drv)
    dsimp only
    split
    · exact ⟨rfl, rfl, hnoted.stopRequests⟩
    · exact ⟨rfl, rfl, hnoted.stopRequests⟩

/-- The look for a reset keeps everything. -/
theorem recover_keeps (platform : ChipPlatform K β) (d : Tmc5160Driver K β) (found : Found) :
    Keeps d (d.recover platform found).2 := by
  obtain ⟨new, hnew⟩ := ChipSide.recoverFromChipReset_spec platform d.cfg d.chip found
  exact ⟨rfl, rfl, hnew.stopRequests⟩

/-- The heed of the status byte keeps everything. -/
theorem heedStatus_keeps (platform : ChipPlatform K β) (d : Tmc5160Driver K β) :
    Keeps d (d.heedStatus platform).2 := by
  unfold heedStatus
  split
  · exact ⟨rfl, rfl, rfl⟩
  · split
    · have hrecover := recover_keeps platform { d with
          chip := { d.chip with statusHoldoffSteps := 8, stepsSinceResetCheck := 0 } } .step
      have hstart : Keeps d { d with
          chip := { d.chip with statusHoldoffSteps := 8, stepsSinceResetCheck := 0 } } := ⟨rfl, rfl, rfl⟩
      split
      case h_1 failed hfailed =>
        rw [hfailed] at hrecover
        exact hstart.trans hrecover
      case h_2 restored hrestored =>
        rw [hrestored] at hrecover
        exact (hstart.trans hrecover).trans (checkDriverStatus_keeps platform restored)
    · exact ⟨rfl, rfl, rfl⟩

/-- The write of the target keeps everything. -/
theorem advance_keeps (platform : ChipPlatform K β) (d : Tmc5160Driver K β) (directionForward : Bool) :
    Keeps d (d.advance platform directionForward).2 := by
  unfold advance
  extract_lets physicalForward delta next
  have hwrite := ChipSide.writeRegister_wrote platform d.chip .xtarget (BitVec.ofInt 32 next)
  split
  case h_1 failed hfailed =>
    rw [hfailed] at hwrite
    exact ⟨rfl, rfl, hwrite.stopRequests⟩
  case h_2 done hdone =>
    rw [hdone] at hwrite
    have hstart : Keeps d { d with chip := { done with target := next, pulses := done.pulses + 1 } } :=
      ⟨rfl, rfl, hwrite.stopRequests⟩
    exact hstart.trans (heedStatus_keeps platform _)

omit [Field K] [FloorRing K] in
/-- The start of a step leaves the counts and takes a sample only in a cruise. -/
theorem beginStep_spec (d : Tmc5160Driver K β) :
    StallSampling.SameCount d.sampling d.beginStep.2.2.sampling ∧ d.beginStep.2.2.cfg = d.cfg ∧
      ChipSide.Wrote d.chip d.beginStep.2.2.chip [] ∧
      (d.beginStep.1 = true → d.sampling.active d.cfg = true) := by
  obtain ⟨hsame, hactive⟩ := StallSampling.due_spec d.cfg d.sampling d.chip.microstep
  exact ⟨hsame, rfl, (ChipSide.wrote_refl d.chip).other rfl rfl rfl rfl, hactive⟩

/-- The look for a reset in a step, due or not. -/
theorem superviseStep_spec (platform : ChipPlatform K β) (d : Tmc5160Driver K β) (supervise : Bool) :
    (d.superviseStep platform supervise).2.cfg = d.cfg ∧
      (d.superviseStep platform supervise).2.sampling = d.sampling ∧
      ∃ new, ChipSide.Recovered d.chip (d.superviseStep platform supervise).2.chip new := by
  unfold superviseStep
  split
  · exact ⟨rfl, rfl, ChipSide.recoverFromChipReset_spec platform d.cfg d.chip .step⟩
  · exact ⟨rfl, rfl, [], (ChipSide.wrote_refl d.chip).recovered fun _ hmem => nomatch hmem⟩

omit [Field K] [LinearOrder K] [FloorRing K] in
/-- An inspection without a load keeps everything. -/
theorem inspectStep_of_none {platform : ChipPlatform K β} {d : Tmc5160Driver K β} {sample : Bool}
    (supervise : Bool) (h : sample = true → d.statusLoad platform = none) :
    Keeps d (d.inspectStep platform supervise sample).2 := by
  unfold inspectStep
  split
  case isFalse => exact ⟨rfl, rfl, rfl⟩
  case isTrue =>
    cases sample with
    | false => exact checkDriverStatus_keeps platform d
    | true =>
      have hload := h rfl
      have hread := ChipSide.readRegister_wrote platform d.chip .drvStatus
      unfold statusLoad at hload
      unfold checkDriverStatus
      split
      case h_1 after hafter =>
        rw [hafter] at hread
        exact ⟨rfl, rfl, hread.stopRequests⟩
      case h_2 drv after hafter =>
        rw [hafter] at hread hload
        have hnoted := hread.trans (ChipSide.noteDriverStatus_stepping after drv)
        have hshort : ChipSide.shortNow drv = true := by
          by_contra hno
          simp [hno] at hload
        simp only [hshort, Bool.and_self, if_true]
        exact ⟨rfl, rfl, hnoted.stopRequests⟩

omit [Field K] [LinearOrder K] [FloorRing K] in
/-- An inspection with a load does with it what the sampling does. -/
theorem inspectStep_of_some {platform : ChipPlatform K β} {d : Tmc5160Driver K β} {sg : ℤ}
    (supervise : Bool) (hstop : d.cfg.stallDetect = .stop) (h : d.statusLoad platform = some sg) :
    ∃ chip, ChipSide.Wrote d.chip chip [] ∧
      d.inspectStep platform supervise true =
        (!(d.sampling.heard d.cfg sg).1,
          { d with
            chip :=
              if (d.sampling.heard d.cfg sg).1 then chip.recordStepLoss (.stall sg d.sampling.stepRateHz) true
              else chip
            sampling := (d.sampling.heard d.cfg sg).2 }) := by
  have hread := ChipSide.readRegister_wrote platform d.chip .drvStatus
  unfold statusLoad at h
  unfold inspectStep checkDriverStatus
  rw [Bool.or_true, if_pos rfl]
  split
  case h_1 after hafter =>
    rw [hafter] at h
    cases h
  case h_2 drv after hafter =>
    rw [hafter] at hread h
    have hnoted := hread.trans (ChipSide.noteDriverStatus_stepping after drv)
    dsimp only at h
    split at h
    case isTrue => cases h
    case isFalse hshort =>
      obtain rfl := Option.some.inj h
      refine ⟨after.noteDriverStatus true drv, hnoted, ?_⟩
      simp only [Bool.not_eq_true] at hshort
      simp only [hshort, Bool.false_and, Bool.false_eq_true, if_false, if_true]
      exact sampleStallguard_eq (d := { d with chip := after.noteDriverStatus true drv }) hstop drv

/-- A step that takes no sample keeps the counts and requests no stop. -/
theorem step_of_none {platform : ChipPlatform K β} {d : Tmc5160Driver K β} (directionForward : Bool)
    (h : d.stallSample platform = none) :
    (d.step platform directionForward).2.cfg = d.cfg ∧
      StallSampling.SameCount d.sampling (d.step platform directionForward).2.sampling ∧
      (d.step platform directionForward).2.chip.stopRequests = d.chip.stopRequests := by
  have hrefl : StallSampling.SameCount d.sampling d.sampling := ⟨rfl, rfl, rfl, rfl, rfl⟩
  unfold stallSample at h
  unfold step
  split
  case isTrue => exact ⟨rfl, hrefl, rfl⟩
  case isFalse hready =>
    rw [if_neg hready] at h
    split
    case isTrue => exact ⟨rfl, hrefl, rfl⟩
    case isFalse hshort =>
      rw [if_neg hshort] at h
      obtain ⟨hsame, hcfg, hwrote, -⟩ := beginStep_spec d
      rcases hbegun : d.beginStep with ⟨sample, supervise, begun⟩
      rw [hbegun] at h hsame hcfg hwrote
      obtain ⟨hcfg', hsampling', new, hnew⟩ := superviseStep_spec platform begun supervise
      dsimp only at h hsame hcfg hwrote ⊢
      have hkeeps {after : Tmc5160Driver K β} (hafter : Keeps (begun.superviseStep platform supervise).2 after) :
          after.cfg = d.cfg ∧ StallSampling.SameCount d.sampling after.sampling ∧
            after.chip.stopRequests = d.chip.stopRequests := by
        refine ⟨(hafter.cfg_eq.trans hcfg').trans hcfg, ?_, ?_⟩
        · rw [hafter.sampling_eq, hsampling']
          exact hsame
        · rw [hafter.stop_eq, hnew.stopRequests, hwrote.stopRequests]
      split
      case h_1 failed hfailed =>
        rw [hfailed] at hkeeps
        exact hkeeps ⟨rfl, rfl, rfl⟩
      case h_2 supervised hsupervised =>
        rw [hsupervised] at h hkeeps
        have hload : sample = true → supervised.statusLoad platform = none := by
          intro hsample
          simpa [hsample] using h
        have hinspect : Keeps supervised (supervised.inspectStep platform supervise sample).2 :=
          inspectStep_of_none supervise hload
        split
        case h_1 refused hrefused =>
          rw [hrefused] at hinspect
          exact hkeeps hinspect
        case h_2 inspected hinspected =>
          rw [hinspected] at hinspect
          exact hkeeps (hinspect.trans (advance_keeps platform inspected directionForward))

/-- A step that takes a sample does with it what the sampling does, and stops when that asks for it. -/
theorem step_of_some {platform : ChipPlatform K β} {d : Tmc5160Driver K β} {sg : ℤ} (directionForward : Bool)
    (hstop : d.cfg.stallDetect = .stop) (h : d.stallSample platform = some sg) :
    d.sampling.active d.cfg = true ∧ ∃ s, StallSampling.SameCount d.sampling s ∧
      (d.step platform directionForward).2.cfg = d.cfg ∧
      (d.step platform directionForward).2.sampling = (s.heard d.cfg sg).2 ∧
      ((s.heard d.cfg sg).1 = true → (d.step platform directionForward).1 = false ∧
        Stopped d (d.step platform directionForward).2) ∧
      ((s.heard d.cfg sg).1 = false →
        (d.step platform directionForward).2.chip.stopRequests = d.chip.stopRequests) := by
  unfold stallSample at h
  unfold step
  split_ifs at h with hready hshort
  rw [if_neg hready, if_neg hshort]
  obtain ⟨hsame, hcfg, hwrote, hactive⟩ := beginStep_spec d
  rcases hbegun : d.beginStep with ⟨sample, supervise, begun⟩
  rw [hbegun] at h hsame hcfg hwrote hactive
  obtain ⟨hcfg', hsampling', new, hnew⟩ := superviseStep_spec platform begun supervise
  dsimp only at h hsame hcfg hwrote hactive ⊢
  rcases hsupervised : begun.superviseStep platform supervise with ⟨supplied, supervised⟩
  rw [hsupervised] at h hcfg' hsampling' hnew
  cases supplied with
  | false => cases h
  | true =>
    dsimp only at h hcfg' hsampling' hnew ⊢
    split_ifs at h with hsample
    subst hsample
    have hall : supervised.cfg = d.cfg := hcfg'.trans hcfg
    obtain ⟨chip, hchip, hinspect⟩ :=
      inspectStep_of_some supervise (by rw [hall, hstop]) h
    rw [hinspect, hall]
    refine ⟨hactive rfl, supervised.sampling, by rw [hsampling']; exact hsame, ?_⟩
    cases hheard : (supervised.sampling.heard d.cfg sg).1 with
    | true =>
      refine ⟨rfl, rfl, fun _ => ⟨rfl, ?_⟩, fun hno => Bool.noConfusion hno⟩
      have hstops := hchip.stopRequests.trans (hnew.stopRequests.trans hwrote.stopRequests)
      have hpulses := hchip.pulses.trans (hnew.pulses.trans hwrote.pulses)
      have hwritten : chip.written = d.chip.written ++ new := by
        rw [hchip.written, hnew.written, hwrote.written, List.append_nil, List.append_nil]
      refine ⟨congrArg (· + 1) hstops, rfl, hpulses, new, hwritten, fun value hmem => ?_⟩
      obtain ⟨hzero, hreset⟩ := hnew.zeroes value hmem
      exact ⟨hzero, hchip.resetCount.trans (hreset.trans (congrArg (· + 1) hwrote.resetCount))⟩
    | false =>
      have hkeeps := advance_keeps platform
        { d with chip := chip, sampling := (supervised.sampling.heard d.cfg sg).2 } directionForward
      refine ⟨hkeeps.cfg_eq, hkeeps.sampling_eq, fun hno => Bool.noConfusion hno, fun _ => ?_⟩
      exact hkeeps.stop_eq.trans (hchip.stopRequests.trans (hnew.stopRequests.trans hwrote.stopRequests))

/-- Only the chip's side changed. -/
def ChipOnly (d after : Tmc5160Driver K β) : Prop := after.cfg = d.cfg ∧ after.sampling = d.sampling

omit [Field K] [LinearOrder K] [FloorRing K] in
/-- A look at the driver status without a sample changes only the chip's side. -/
theorem checkDriverStatus_chipOnly (platform : ChipPlatform K β) (d : Tmc5160Driver K β) (stepping : Bool) :
    ChipOnly d (d.checkDriverStatus platform stepping false).2 := by
  unfold checkDriverStatus
  split
  · exact ⟨rfl, rfl⟩
  · dsimp only
    split
    · exact ⟨rfl, rfl⟩
    · exact ⟨rfl, rfl⟩

/-- The look at standstill changes only the chip's side. -/
theorem poll_chipOnly (platform : ChipPlatform K β) (d : Tmc5160Driver K β) : ChipOnly d (d.poll platform).2 := by
  have hrecover := recover_keeps platform d .idle
  unfold poll
  split
  · exact ⟨rfl, rfl⟩
  · split
    case h_1 failed hfailed =>
      rw [hfailed] at hrecover
      exact ⟨hrecover.cfg_eq, hrecover.sampling_eq⟩
    case h_2 restored hrestored =>
      rw [hrestored] at hrecover
      obtain ⟨hcfg, hsampling⟩ := checkDriverStatus_chipOnly platform restored false
      exact ⟨hcfg.trans hrecover.cfg_eq, hsampling.trans hrecover.sampling_eq⟩

omit [Field K] [LinearOrder K] [FloorRing K] in
/-- The confirmation of a target changes only the chip's side. -/
theorem confirmTarget_chipOnly (platform : ChipPlatform K β) (d : Tmc5160Driver K β) :
    ChipOnly d (d.confirmTarget platform).2 := by
  unfold confirmTarget
  split
  · exact ⟨rfl, rfl⟩
  · split
    · exact ⟨rfl, rfl⟩
    · split
      · exact ⟨rfl, rfl⟩
      · dsimp only
        split
        · exact ⟨rfl, rfl⟩
        · exact ⟨rfl, rfl⟩

omit [Field K] [LinearOrder K] [FloorRing K] in
/-- A disable changes only the chip's side. -/
theorem disable_chipOnly (platform : ChipPlatform K β) (d : Tmc5160Driver K β) :
    ChipOnly d (d.disable platform).2 := by
  unfold disable
  dsimp only
  split
  · split
    · exact ⟨rfl, rfl⟩
    · exact ⟨rfl, rfl⟩
  · exact ⟨rfl, rfl⟩

/-- An enable changes only the chip's side. -/
theorem enable_chipOnly (platform : ChipPlatform K β) (d : Tmc5160Driver K β) :
    ChipOnly d (d.enable platform).2 := by
  unfold enable
  dsimp only
  split
  · exact ⟨rfl, rfl⟩
  · split
    · exact ⟨rfl, rfl⟩
    · split
      · exact ⟨rfl, rfl⟩
      · split
        · exact ⟨rfl, rfl⟩
        · split
          · exact ⟨rfl, rfl⟩
          · exact checkDriverStatus_chipOnly platform _ false

omit [Field K] [LinearOrder K] [FloorRing K] in
/-- A change of the microstep changes only the chip's side. -/
theorem setMicrostep_chipOnly (platform : ChipPlatform K β) (d : Tmc5160Driver K β) (divisor : ℤ) :
    ChipOnly d (d.setMicrostep platform divisor) := by
  unfold setMicrostep
  split
  · exact ⟨rfl, rfl⟩
  · dsimp only
    split
    · exact ⟨rfl, rfl⟩
    · split
      · exact ⟨rfl, rfl⟩
      · exact ⟨rfl, rfl⟩

/-- A change of the run current changes only the chip's side. -/
theorem setRunCurrent_chipOnly (platform : ChipPlatform K β) (d : Tmc5160Driver K β) (aRms : K) :
    ChipOnly d (d.setRunCurrent platform aRms).2 := by
  unfold setRunCurrent
  split
  · exact ⟨rfl, rfl⟩
  · split
    · exact ⟨rfl, rfl⟩
    · split
      · exact ⟨rfl, rfl⟩
      · exact ⟨rfl, rfl⟩

/-- The settings are the ones the driver was built with, and its sampling agrees with a log. -/
def Follows (cfg : Tmc5160Config K) (d : Tmc5160Driver K β) (log : List Sight) : Prop :=
  d.cfg = cfg ∧ d.sampling.Agrees cfg log

omit [Field K] [FloorRing K] in
/-- What changes only the chip's side adds nothing to the log. -/
theorem Follows.of_chipOnly {cfg : Tmc5160Config K} {d after : Tmc5160Driver K β} {log : List Sight}
    (h : Follows cfg d log) (honly : ChipOnly d after) : Follows cfg after log :=
  ⟨honly.1.trans h.1, honly.2 ▸ h.2⟩

/-- Every call is taken in as the log has it. -/
theorem Follows.apply {platform : ChipPlatform K β} {cfg : Tmc5160Config K} {d : Tmc5160Driver K β}
    {log : List Sight} (h : Follows cfg d log) (hstop : cfg.stallDetect = .stop)
    (hconfirm : 1 ≤ cfg.stallConfirmSamples) (call : Call K) :
    Follows cfg (d.apply platform call) ((d.sight platform call).toList ++ log) := by
  obtain ⟨rfl, hagrees⟩ := h
  cases call with
  | noteStepRate fullStepHz steady => exact ⟨rfl, hagrees.noteStepRate fullStepHz steady⟩
  | step directionForward =>
    cases hsample : d.stallSample platform with
    | none =>
      obtain ⟨hcfg, hsame, -⟩ := step_of_none directionForward hsample
      simp only [sight, hsample, Option.map_none, Option.toList_none, List.nil_append]
      exact ⟨hcfg, hagrees.congr hsame⟩
    | some sg =>
      obtain ⟨hactive, s, hsame, hcfg, hsampling, -⟩ := step_of_some directionForward hstop hsample
      have hs := hagrees.congr hsame
      have hsActive : s.active d.cfg = true :=
        (StallSampling.active_congr d.cfg hsame.stepRateHz hsame.stepRateSteady).trans hactive
      simp only [sight, hsample, Option.map_some, Option.toList_some, List.cons_append, List.nil_append]
      exact ⟨hcfg, hsampling ▸ (hs.heard hconfirm hsActive sg).2⟩
  | takeStepLossStop => exact ⟨rfl, hagrees⟩
  | poll => exact Follows.of_chipOnly ⟨rfl, hagrees⟩ (poll_chipOnly platform d)
  | confirmTarget => exact Follows.of_chipOnly ⟨rfl, hagrees⟩ (confirmTarget_chipOnly platform d)
  | enable => exact Follows.of_chipOnly ⟨rfl, hagrees⟩ (enable_chipOnly platform d)
  | disable => exact Follows.of_chipOnly ⟨rfl, hagrees⟩ (disable_chipOnly platform d)
  | activeCheck => exact ⟨rfl, hagrees⟩
  | setMicrostep divisor => exact Follows.of_chipOnly ⟨rfl, hagrees⟩ (setMicrostep_chipOnly platform d divisor)
  | setRunCurrent aRms => exact Follows.of_chipOnly ⟨rfl, hagrees⟩ (setRunCurrent_chipOnly platform d aRms)

/-- A run is taken in as its log has it. -/
theorem Follows.run {platform : ChipPlatform K β} {cfg : Tmc5160Config K} {d : Tmc5160Driver K β}
    {log : List Sight} (h : Follows cfg d log) (hstop : cfg.stallDetect = .stop)
    (hconfirm : 1 ≤ cfg.stallConfirmSamples) (calls : List (Call K)) :
    Follows cfg (Library.run (Tmc5160Driver.apply platform) d calls) (logged platform d log calls) := by
  induction calls generalizing d log with
  | nil => exact h
  | cons call rest ih => exact ih (h.apply hstop hconfirm call)

/-- A new driver agrees with the empty log. -/
theorem follows_new (platform : ChipPlatform K β) (cfg : Tmc5160Config K) (microstep : ℤ) (runCurrentARms : K)
    (bus : β) : Follows cfg (new platform cfg microstep runCurrentARms bus) [] :=
  ⟨rfl, StallSampling.agrees_new cfg⟩

/-- The law of a step: it requests the stop exactly when it takes a sample with which the log confirms
a stall, and a step that requests it is refused, and leaves the target or puts it at the zero of a
chip that it found reset. -/
structure StallLaw (platform : ChipPlatform K β) (cfg : Tmc5160Config K) (d : Tmc5160Driver K β)
    (log : List Sight) (directionForward : Bool) : Prop where
  requests_iff : (d.step platform directionForward).2.chip.stopRequests ≠ d.chip.stopRequests ↔
    ∃ sg, d.stallSample platform = some sg ∧ Sight.Confirms cfg (.sample sg :: log)
  of_request : (d.step platform directionForward).2.chip.stopRequests ≠ d.chip.stopRequests →
    (d.step platform directionForward).1 = false ∧ Stopped d (d.step platform directionForward).2

/-- A driver that agrees with its log obeys the law at every step. -/
theorem Follows.stallLaw {platform : ChipPlatform K β} {cfg : Tmc5160Config K} {d : Tmc5160Driver K β}
    {log : List Sight} (h : Follows cfg d log) (hstop : cfg.stallDetect = .stop)
    (hconfirm : 1 ≤ cfg.stallConfirmSamples) (directionForward : Bool) :
    StallLaw platform cfg d log directionForward := by
  obtain ⟨rfl, hagrees⟩ := h
  cases hsample : d.stallSample platform with
  | none =>
    obtain ⟨-, -, hsame⟩ := step_of_none directionForward hsample
    refine ⟨⟨fun hrequest => absurd hsame hrequest, fun hconfirms => ?_⟩, fun hrequest => absurd hsame hrequest⟩
    obtain ⟨sg, hsome, -⟩ := hconfirms
    rw [hsample] at hsome
    cases hsome
  | some sg =>
    obtain ⟨hactive, s, hsame, -, -, hstops, hgoes⟩ := step_of_some directionForward hstop hsample
    have hsActive : s.active d.cfg = true :=
      (StallSampling.active_congr d.cfg hsame.stepRateHz hsame.stepRateSteady).trans hactive
    have hheard := ((hagrees.congr hsame).heard hconfirm hsActive sg).1
    cases hasks : (s.heard d.cfg sg).1 with
    | true =>
      obtain ⟨hrefused, hstopped⟩ := hstops hasks
      refine ⟨⟨fun _ => ⟨sg, hsample, hheard.mp hasks⟩, fun _ => ?_⟩, fun _ => ⟨hrefused, hstopped⟩⟩
      rw [hstopped.requested]
      exact Nat.succ_ne_self _
    | false =>
      refine ⟨⟨fun hrequest => absurd (hgoes hasks) hrequest, fun hconfirms => ?_⟩,
        fun hrequest => absurd (hgoes hasks) hrequest⟩
      obtain ⟨other, hother, hconfirms⟩ := hconfirms
      obtain rfl := Option.some.inj (hsample.symm.trans hother)
      rw [hheard.mpr hconfirms] at hasks
      cases hasks

/-- Under the stop policy, after any calls, a step requests the stop exactly when as many low samples
as have to confirm have come in a row within one cruise, behind its settle time and since the last
request; such a step is refused and writes no target but the zero of a chip that it found reset. -/
theorem stallLaw_of_run (platform : ChipPlatform K β) {cfg : Tmc5160Config K}
    (hstop : cfg.stallDetect = .stop) (hconfirm : 1 ≤ cfg.stallConfirmSamples) (microstep : ℤ)
    (runCurrentARms : K) (bus : β) (calls : List (Call K)) (directionForward : Bool) :
    StallLaw platform cfg
      (Library.run (apply platform) (new platform cfg microstep runCurrentARms bus) calls)
      (logged platform (new platform cfg microstep runCurrentARms bus) [] calls) directionForward :=
  ((follows_new platform cfg microstep runCurrentARms bus).run hstop hconfirm calls).stallLaw hstop hconfirm
    directionForward

/-- A chip that answers as it should, reads no load at all and, whenever it is asked, has been reset. It
keeps its chopper settings. -/
def resettingChip : ChipPlatform ℚ (BitVec 32) where
  available chopconf := (true, chopconf)
  isOpen _ := true
  read chopconf register :=
    match register with
    | .ioin => (some (0x30000000#32, 0), chopconf)
    | .gstat => (some (1, 0), chopconf)
    | .chopconf => (some (chopconf, 0), chopconf)
    | _ => (some (0, 0), chopconf)
  write chopconf register value := (some 0, if register = .chopconf then value else chopconf)
  setEnableLine chopconf _ := (true, chopconf)
  sqrt := doubleSqrt

/-- The default settings under the stop policy. -/
def stoppingConfig : Tmc5160Config ℚ where
  invertDirection := false
  holdCurrentFrac := 3 / 10
  senseResistorOhm := 75 / 1000
  stealthChop := false
  stallDetect := .stop
  stallguardSgt := 0
  stallSgMin := 0
  stallMinStepHz := 50
  stallConfirmSamples := 3
  verifyEnableLine := true

/-- An enabled motor in a cruise, 63 steps on: the first sample and two low ones have come. -/
def cruise : List (Call ℚ) := [.enable, .noteStepRate 100 true] ++ List.replicate 63 (.step true)

/-- The driver behind the cruise. -/
def cruising : Tmc5160Driver ℚ (BitVec 32) :=
  Library.run (apply resettingChip) (new resettingChip stoppingConfig 4 (8 / 10) 0) cruise

/-- The next step confirms the stall, asks for the stop and is refused. -/
theorem stallLaw_of_run_cruise :
    StallLaw resettingChip stoppingConfig cruising
      (logged resettingChip (new resettingChip stoppingConfig 4 (8 / 10) 0) [] cruise) true :=
  stallLaw_of_run resettingChip rfl (by decide) 4 (8 / 10) 0 cruise true

/-- In the step in which it asks for the stop the driver writes a new target to the chip: the same step
finds the chip reset and configures it again, with the target at zero. -/
theorem cruising_rewritesTarget :
    (cruising.step resettingChip true).2.chip.stopRequests = cruising.chip.stopRequests + 1 ∧
      cruising.chip.target ≠ 0 ∧
      (Register.xtarget, 0#32) ∈
        (cruising.step resettingChip true).2.chip.written.drop cruising.chip.written.length := by
  decide +kernel

end Tmc5160Driver

end Coatheal.Motion
