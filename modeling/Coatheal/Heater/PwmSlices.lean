import Coatheal.Heater.Pwm
import Coatheal.Library.Run

/-!
# What reaches the heater lines

A monitor keeps, for each channel, the duty the most recent call asked for,
whether a whole slice was rendered since a zero was asked for, and in how many
slices of a period the line was on while duty and handle stayed. A refused call
stores nothing and a line that comes back is off whatever the recorded state
says, so the two promises hold as long as no line comes back out of step.
-/

namespace Coatheal.Heater

open Coatheal.Library

/-- The controller of the lines with what the monitor has seen. A steady duty is that of a period in
which neither the stored duty has changed nor the handle was lost. -/
structure PwmScope where
  controller : LibgpiodPwmController
  asked : ℕ → Option ℚ
  fresh : ℕ → Bool
  quiet : ℕ → Bool
  steady : ℕ → Option ℚ
  onCount : ℕ → ℕ

namespace PwmScope

/-- The process starts with no call made and no period rendered. -/
def new (slices channels : ℕ) (activeHigh : Bool) (claimed : List ℕ) : PwmScope where
  controller := .new slices channels activeHigh claimed
  asked _ := none
  fresh _ := false
  quiet _ := false
  steady _ := none
  onCount _ := 0

/-- The most recent call for a channel asked for zero. -/
def asksZero (s : PwmScope) (channel : ℕ) : Bool :=
  match s.asked channel with
  | some duty => decide (duty ≤ 0)
  | none => false

/-- A call for a duty returns; a positive duty ends what a zero promised. -/
def returns (s : PwmScope) (channel : ℕ) (duty : ℚ) : PwmScope :=
  { s with
    asked := Function.update s.asked channel (some duty)
    fresh := if 0 < duty then Function.update s.fresh channel false else s.fresh
    quiet := if 0 < duty then Function.update s.quiet channel false else s.quiet }

/-- Another duty stored during a period makes it unsteady. -/
def unsettle (s : PwmScope) (channel : ℕ) (duty : ℚ) : PwmScope :=
  { s with steady := fun c =>
      if c = channel ∧ s.controller.worker ≠ .between ∧ s.steady c ≠ some (clamp duty 0 1) then none
      else s.steady c }

/-- A period begins, and with it the count of its slices. -/
def begins (s : PwmScope) : PwmScope :=
  { s with
    steady := fun c => if (s.controller.line c).isSome then some (s.controller.duty c) else none
    onCount := fun _ => 0 }

/-- The worker has read a duty: the slice is a fresh one if the most recent call asked for zero. -/
def reads (s : PwmScope) (channel : ℕ) : PwmScope :=
  { s with fresh := Function.update s.fresh channel (s.fresh channel || s.asksZero channel) }

/-- The worker has rendered a slice of a channel. -/
def renders (s : PwmScope) (next : LibgpiodPwmController) (channel : ℕ) : PwmScope :=
  { s with
    quiet := Function.update s.quiet channel (s.quiet channel || s.fresh channel)
    steady := if next.line channel = none then Function.update s.steady channel none else s.steady
    onCount := Function.update s.onCount channel
      (s.onCount channel + if next.HeaterOn channel then 1 else 0) }

/-- What the monitor notes of an event that leads to a next state. -/
def note (s : PwmScope) (next : LibgpiodPwmController) : PwmEvent → PwmScope
  | .setDuty channel duty => if s.controller.channelHealthy channel then s else s.returns channel duty
  | .store index =>
    match s.controller.calls[index]? with
    | some (channel, duty) => (s.unsettle channel duty).returns channel duty
    | none => s
  | .startPeriod =>
    match s.controller.worker, next.worker with
    | .between, .reading _ _ => s.begins
    | _, _ => s
  | .readDuty =>
    match s.controller.worker, next.worker with
    | .reading _ channel, .writing _ _ _ => s.reads channel
    | _, _ => s
  | .render _ =>
    match s.controller.worker with
    | .writing _ channel _ => s.renders next channel
    | _ => s
  | _ => s

/-- One event, seen by the monitor. -/
def step (s : PwmScope) (event : PwmEvent) : PwmScope :=
  let next := s.controller.step event
  { s.note next event with controller := next }

/-- A zero that was asked for and rendered keeps the heater off, and a period with a steady duty was
on for exactly the rounded share of its slices. -/
structure Faithful (s : PwmScope) : Prop where
  zero : ∀ channel, s.quiet channel = true → ¬ s.controller.HeaterOn channel
  exact : s.controller.worker = .between → ∀ channel duty, s.steady channel = some duty →
    (s.onCount channel : ℤ) = llround (duty * s.controller.slices)

/-- No line comes back while the recorded state of its channel is on, nor while a positive duty is
stored although the most recent call asked for zero. -/
def InStep (s : PwmScope) : PwmEvent → Prop
  | .retryMissingLines claimed =>
    s.controller.worker = .between → ∀ channel ∈ claimed, channel < s.controller.channels →
      s.controller.line channel = none → s.controller.lastState channel = false ∧
        (s.asksZero channel = true → s.controller.onSlices (s.controller.duty channel) ≤ 0)
  | _ => True

end PwmScope

/-- The number of slices of the period that a channel has been rendered in. -/
def PwmWorker.rendered (slices channel : ℕ) : PwmWorker → ℕ
  | .between | .finished => slices
  | .reading slice next | .writing slice next _ => if channel < next then slice + 1 else slice

/-- The worker is at a slice and a channel that exist. -/
def PwmWorker.Within (slices channels : ℕ) : PwmWorker → Prop
  | .between | .finished => True
  | .reading slice channel | .writing slice channel _ => slice < slices ∧ channel < channels

namespace LibgpiodPwmController

/-- The next position exists. -/
theorem advance_within {p : LibgpiodPwmController} {slice channel : ℕ} (hslice : slice < p.slices)
    (hchannel : channel < p.channels) : (p.advance slice channel).Within p.slices p.channels := by
  unfold advance
  split
  · exact ⟨hslice, by assumption⟩
  split
  · exact ⟨by assumption, by omega⟩
  · trivial

/-- Going on completes the slice of one channel and of no other. -/
theorem rendered_advance {p : LibgpiodPwmController} {slice channel other : ℕ} (on : Bool)
    (hslice : slice < p.slices) (hother : other < p.channels) :
    (p.advance slice channel).rendered p.slices other =
      if other = channel then slice + 1 else (PwmWorker.writing slice channel on).rendered p.slices other := by
  unfold advance
  split
  · simp only [PwmWorker.rendered]
    split_ifs <;> omega
  split
  · simp only [PwmWorker.rendered]
    split_ifs <;> omega
  · simp only [PwmWorker.rendered]
    split_ifs <;> omega

/-- The worker goes on, it does not end. -/
theorem advance_ne_finished (p : LibgpiodPwmController) (slice channel : ℕ) :
    p.advance slice channel ≠ .finished := by
  unfold advance
  split
  · simp
  split <;> simp

/-- Rendering records the state, goes on, and changes one line, if any: to the level of the state, or it
drops it. -/
theorem render_spec {p : LibgpiodPwmController} (slice : ℕ) {channel : ℕ} (on accepted : Bool)
    (hsync : ∀ level, p.line channel = some level → level = p.physicalValue (p.lastState channel)) :
    ∃ line, p.render slice channel on accepted = { p with
        line := line, lastState := Function.update p.lastState channel on, worker := p.advance slice channel } ∧
      (∀ c, c ≠ channel → line c = p.line c) ∧
        (line channel = none ∨ (p.line channel).isSome = true ∧ line channel = some (p.physicalValue on)) := by
  unfold render writeLine
  cases hline : p.line channel with
  | none => exact ⟨p.line, by simp, fun _ _ => rfl, Or.inl hline⟩
  | some level =>
    by_cases hon : on = p.lastState channel
    · refine ⟨p.line, by simp [hon], fun _ _ => rfl, Or.inr ⟨rfl, ?_⟩⟩
      rw [hline, hsync level hline, hon]
    · refine ⟨Function.update p.line channel (if accepted then some (p.physicalValue on) else none),
        by simp [hon], fun c hc => Function.update_of_ne hc _ _, ?_⟩
      rw [Function.update_self]
      cases accepted
      · exact Or.inl rfl
      · exact Or.inr ⟨rfl, rfl⟩

end LibgpiodPwmController

namespace PwmScope

/-- What holds of the monitor whatever is stored. The last three fields are about the period under way: a
steady duty is the stored one, what is about to be written is its comparison, and the slices so far are
counted. -/
structure Marked (s : PwmScope) : Prop where
  dutyMem : ∀ c, 0 ≤ s.controller.duty c ∧ s.controller.duty c ≤ 1
  inRange : ∀ c, (s.controller.line c).isSome = true → c < s.controller.channels
  within : s.controller.worker.Within s.controller.slices s.controller.channels
  sync : s.controller.worker ≠ .finished → ∀ c level, s.controller.line c = some level →
    level = s.controller.physicalValue (s.controller.lastState c)
  marks : ∀ c, s.fresh c = true ∨ s.quiet c = true → s.asksZero c = true
  careful : ∀ slice c on, s.controller.worker = .writing slice c on → s.fresh c = true ∨ s.quiet c = true →
    (s.controller.line c).isSome = true → on = false
  zero : ∀ c, s.quiet c = true → ¬ s.controller.HeaterOn c
  steadyMem : ∀ c duty, s.steady c = some duty → 0 ≤ duty ∧ duty ≤ 1
  steadyDuty : s.controller.worker ≠ .between → s.controller.worker ≠ .finished → ∀ c duty,
    s.steady c = some duty → s.controller.duty c = duty ∧ (s.controller.line c).isSome = true
  rendering : ∀ slice c on, s.controller.worker = .writing slice c on → ∀ duty, s.steady c = some duty →
    on = decide ((slice : ℤ) < s.controller.onSlices duty)
  counted : s.controller.worker ≠ .finished → ∀ c duty, s.steady c = some duty →
    (s.onCount c : ℤ) = min (s.controller.worker.rendered s.controller.slices c : ℤ) (s.controller.onSlices duty)

/-- The invariant: where the most recent call asked for zero, the duty stored for a line switches it on in
no slice. -/
structure Inv (s : PwmScope) : Prop extends Marked s where
  honest : s.controller.worker ≠ .finished → ∀ c, (s.controller.line c).isSome = true →
    s.asksZero c = true → s.controller.onSlices (s.controller.duty c) ≤ 0

/-- The process starts in the invariant. -/
theorem inv_new (slices channels : ℕ) (activeHigh : Bool) (claimed : List ℕ) :
    (new slices channels activeHigh claimed).Inv := by
  have hline (c : ℕ) (level : Bool)
      (h : (new slices channels activeHigh claimed).controller.line c = some level) :
      c < channels ∧ level = !activeHigh := by
    simp only [new, LibgpiodPwmController.new] at h
    split at h
    · rename_i hclaimed
      exact ⟨hclaimed.1, (Option.some.inj h).symm⟩
    · cases h
  refine ⟨?_, fun _ c _ h => absurd h Bool.false_ne_true⟩
  constructor
  case inRange =>
    intro c h
    obtain ⟨level, hlevel⟩ := Option.isSome_iff_exists.mp h
    exact (hline c level hlevel).1
  case sync =>
    intro _ c level h
    rw [(hline c level h).2]
    rfl
  all_goals simp [new, LibgpiodPwmController.new, PwmWorker.Within]

/-- Only the channel of the call is asked for another duty. -/
theorem asksZero_returns (s : PwmScope) (channel : ℕ) (duty : ℚ) (c : ℕ) :
    (s.returns channel duty).asksZero c = if c = channel then decide (duty ≤ 0) else s.asksZero c := by
  unfold asksZero PwmScope.returns
  by_cases hc : c = channel
  · simp [hc]
  · simp [hc]

/-- A call that returns keeps the invariant when what is stored then agrees with what was asked for. -/
theorem Marked.returns {s : PwmScope} (hs : s.Marked) {channel : ℕ} {duty : ℚ}
    (hhonest : s.controller.worker ≠ .finished → ∀ c, (s.controller.line c).isSome = true →
      (s.returns channel duty).asksZero c = true → s.controller.onSlices (s.controller.duty c) ≤ 0) :
    (s.returns channel duty).Inv := by
  have hfresh (c : ℕ) (h : (s.returns channel duty).fresh c = true) :
      s.fresh c = true ∧ (c = channel → duty ≤ 0) := by
    simp only [PwmScope.returns] at h
    split at h <;> rename_i hpos
    · by_cases hc : c = channel
      · simp [hc] at h
      · exact ⟨by simpa [hc] using h, fun heq => absurd heq hc⟩
    · exact ⟨h, fun _ => not_lt.mp hpos⟩
  have hquiet (c : ℕ) (h : (s.returns channel duty).quiet c = true) :
      s.quiet c = true ∧ (c = channel → duty ≤ 0) := by
    simp only [PwmScope.returns] at h
    split at h <;> rename_i hpos
    · by_cases hc : c = channel
      · simp [hc] at h
      · exact ⟨by simpa [hc] using h, fun heq => absurd heq hc⟩
    · exact ⟨h, fun _ => not_lt.mp hpos⟩
  refine ⟨⟨hs.dutyMem, hs.inRange, hs.within, hs.sync, ?_, ?_, ?_, hs.steadyMem, hs.steadyDuty,
    hs.rendering, hs.counted⟩, hhonest⟩
  · intro c h
    have hbefore : (s.fresh c = true ∨ s.quiet c = true) ∧ (c = channel → duty ≤ 0) :=
      h.elim (fun h => ⟨Or.inl (hfresh c h).1, (hfresh c h).2⟩) fun h => ⟨Or.inr (hquiet c h).1, (hquiet c h).2⟩
    rw [asksZero_returns]
    split
    · rename_i hc
      exact decide_eq_true (hbefore.2 hc)
    · exact hs.marks c hbefore.1
  · intro slice c on hworker h hline
    exact hs.careful slice c on hworker (h.imp (fun h => (hfresh c h).1) fun h => (hquiet c h).1) hline
  · exact fun c h => hs.zero c (hquiet c h).1

/-- A refused call keeps the invariant: its channel has no line. -/
theorem Inv.refused {s : PwmScope} (hs : s.Inv) {channel : ℕ} {duty : ℚ}
    (hrefused : s.controller.channelHealthy channel = false) : (s.returns channel duty).Inv := by
  refine hs.toMarked.returns fun hworker c hline hzero => ?_
  rw [asksZero_returns] at hzero
  split at hzero
  · rename_i hc
    have hhealthy : s.controller.channelHealthy c = true :=
      Bool.and_eq_true_iff.mpr ⟨decide_eq_true (hs.inRange c hline), hline⟩
    rw [hc, hrefused] at hhealthy
    exact absurd hhealthy Bool.false_ne_true
  · exact hs.honest hworker c hline hzero

/-- A duty that is stored leaves the monitor right, once the period is unsettled. -/
theorem Inv.stored {s : PwmScope} (hs : s.Inv) (channel : ℕ) (duty : ℚ) (calls : List (ℕ × ℚ)) :
    Marked { s.unsettle channel duty with controller := { s.controller with
      duty := Function.update s.controller.duty channel (clamp duty 0 1), calls := calls } } := by
  have hsteady (c : ℕ) (steady : ℚ) (h : (s.unsettle channel duty).steady c = some steady) :
      s.steady c = some steady ∧
        (c = channel → s.controller.worker ≠ .between → steady = clamp duty 0 1) := by
    simp only [unsettle] at h
    split at h
    · cases h
    · rename_i hkept
      refine ⟨h, fun hc hworker => ?_⟩
      by_contra hne
      exact hkept ⟨hc, hworker, fun heq => hne (Option.some.inj (h.symm.trans heq))⟩
  refine ⟨?_, hs.inRange, hs.within, hs.sync, hs.marks, hs.careful, hs.zero, ?_, ?_, ?_, ?_⟩
  · intro c
    dsimp only
    by_cases hc : c = channel
    · rw [hc, Function.update_self]
      exact clamp_mem duty zero_le_one
    · rw [Function.update_of_ne hc]
      exact hs.dutyMem c
  · exact fun c steady h => hs.steadyMem c steady (hsteady c steady h).1
  · intro hbetween hfinished c steady h
    obtain ⟨hbefore, hsame⟩ := hsteady c steady h
    obtain ⟨hduty, hline⟩ := hs.steadyDuty hbetween hfinished c steady hbefore
    refine ⟨?_, hline⟩
    dsimp only
    by_cases hc : c = channel
    · rw [hc, Function.update_self]
      exact (hsame hc hbetween).symm
    · rw [Function.update_of_ne hc]
      exact hduty
  · exact fun slice c on hworker steady h => hs.rendering slice c on hworker steady (hsteady c steady h).1
  · exact fun hworker c steady h => hs.counted hworker c steady (hsteady c steady h).1

/-- A call that stores its duty keeps the invariant. -/
theorem Inv.store {s : PwmScope} (hs : s.Inv) (channel : ℕ) (duty : ℚ) (calls : List (ℕ × ℚ)) :
    Inv { (s.unsettle channel duty).returns channel duty with controller := { s.controller with
      duty := Function.update s.controller.duty channel (clamp duty 0 1), calls := calls } } := by
  refine (hs.stored channel duty calls).returns fun hworker c hline hzero => ?_
  rw [asksZero_returns] at hzero
  dsimp only
  split at hzero
  · rename_i hc
    rw [hc, Function.update_self]
    exact (s.controller.onSlices_of_nonpos (of_decide_eq_true hzero)).le
  · rename_i hc
    rw [Function.update_of_ne hc]
    exact hs.honest hworker c hline hzero

/-- A line that comes back in step keeps the invariant. -/
theorem Inv.retryMissingLines {s : PwmScope} (hs : s.Inv) {claimed : List ℕ}
    (hbetween : s.controller.worker = .between) (hok : s.InStep (.retryMissingLines claimed)) :
    Inv { s with controller := s.controller.retryMissingLines claimed } := by
  have hback (c : ℕ) : (s.controller.retryMissingLines claimed).line c = s.controller.line c ∨
      (s.controller.retryMissingLines claimed).line c = some (s.controller.physicalValue false) ∧
        c < s.controller.channels ∧ s.controller.lastState c = false ∧
        (s.asksZero c = true → s.controller.onSlices (s.controller.duty c) ≤ 0) := by
    simp only [LibgpiodPwmController.retryMissingLines]
    split
    · rename_i hclaimed
      obtain ⟨hnone, hrange, hmem⟩ := hclaimed
      exact Or.inr ⟨rfl, hrange, hok hbetween c hmem hrange hnone⟩
    · exact Or.inl rfl
  have hworker {p : Prop} (h : (s.controller.retryMissingLines claimed).worker ≠ .between) : p :=
    absurd hbetween h
  have hfinished : s.controller.worker ≠ .finished := by rw [hbetween]; simp
  refine ⟨⟨hs.dutyMem, ?_, hs.within, ?_, hs.marks, ?_, ?_, hs.steadyMem, fun h => hworker h, ?_, hs.counted⟩, ?_⟩
  · intro c hline
    rcases hback c with hsame | ⟨-, hrange, -⟩
    · exact hs.inRange c (hsame ▸ hline)
    · exact hrange
  · intro _ c level hline
    rcases hback c with hsame | ⟨hoff, -, hlast, -⟩
    · exact hs.sync hfinished c level (hsame.symm.trans hline)
    · have hlevel : s.controller.physicalValue false = level := Option.some.inj (hoff.symm.trans hline)
      change level = s.controller.physicalValue (s.controller.lastState c)
      rw [hlast, hlevel]
  · intro slice c on h
    exact hworker (by rw [h]; simp)
  · intro c hquiet hon
    rcases hback c with hsame | ⟨hoff, -⟩
    · exact hs.zero c hquiet (hsame.symm.trans hon)
    · have hlevel := Option.some.inj (hoff.symm.trans hon)
      exact Bool.false_ne_true ((s.controller.physicalValue_eq_true false).mp hlevel)
  · intro slice c on h
    exact hworker (by rw [h]; simp)
  · intro _ c hline hzero
    rcases hback c with hsame | ⟨-, -, -, hhonest⟩
    · exact hs.honest hfinished c (hsame ▸ hline) hzero
    · exact hhonest hzero

/-- The begin of a period keeps the invariant: nothing is counted yet. -/
theorem Inv.startPeriod {s : PwmScope} (hs : s.Inv) (hbetween : s.controller.worker = .between)
    (hslices : 0 < s.controller.slices) (hchannels : 0 < s.controller.channels) :
    Inv { s.begins with controller := { s.controller with worker := .reading 0 0 } } := by
  have hfinished : s.controller.worker ≠ .finished := by rw [hbetween]; simp
  have hsteady (c : ℕ) (duty : ℚ) (h : s.begins.steady c = some duty) :
      s.controller.duty c = duty ∧ (s.controller.line c).isSome = true := by
    simp only [begins] at h
    split at h
    · rename_i hline
      exact ⟨Option.some.inj h, hline⟩
    · cases h
  refine ⟨⟨hs.dutyMem, hs.inRange, ⟨hslices, hchannels⟩, fun _ => hs.sync hfinished, hs.marks, ?_, hs.zero,
    ?_, fun _ _ => hsteady, ?_, ?_⟩, fun _ => hs.honest hfinished⟩
  · rintro slice c on ⟨⟩
  · intro c duty h
    rw [← (hsteady c duty h).1]
    exact hs.dutyMem c
  · rintro slice c on ⟨⟩
  · intro _ c duty h
    obtain ⟨hlow, hhigh⟩ : 0 ≤ duty ∧ duty ≤ 1 := by
      rw [← (hsteady c duty h).1]
      exact hs.dutyMem c
    have hnonneg := (s.controller.onSlices_mem hlow hhigh).1
    simpa [PwmWorker.rendered, begins, LibgpiodPwmController.onSlices] using hnonneg

/-- The read of a duty keeps the invariant. -/
theorem Inv.readDuty {s : PwmScope} (hs : s.Inv) {slice channel : ℕ}
    (hreading : s.controller.worker = .reading slice channel) :
    Inv { s.reads channel with controller := { s.controller with
      worker := .writing slice channel (decide ((slice : ℤ) < s.controller.onSlices (s.controller.duty channel))) } } := by
  have hfinished : s.controller.worker ≠ .finished := by rw [hreading]; simp
  have hbetween : s.controller.worker ≠ .between := by rw [hreading]; simp
  have hmarks (c : ℕ) (h : (s.reads channel).fresh c = true ∨ s.quiet c = true) : s.asksZero c = true := by
    by_cases hc : c = channel
    · subst hc
      simp only [reads, Function.update_self, Bool.or_eq_true] at h
      rcases h with (hfresh | hzero) | hquiet
      · exact hs.marks c (Or.inl hfresh)
      · exact hzero
      · exact hs.marks c (Or.inr hquiet)
    · simp only [reads, Function.update_of_ne hc] at h
      exact hs.marks c h
  have hwithin := hs.within
  rw [hreading] at hwithin
  refine ⟨⟨hs.dutyMem, hs.inRange, hwithin, fun _ => hs.sync hfinished, hmarks, ?_, hs.zero, hs.steadyMem,
    fun _ _ => hs.steadyDuty hbetween hfinished, ?_, ?_⟩, fun _ => hs.honest hfinished⟩
  · rintro _ _ _ ⟨⟩ hmark hline
    have hnone := hs.honest hfinished channel hline (hmarks channel hmark)
    exact decide_eq_false (by omega)
  · rintro _ _ _ ⟨⟩ duty hsteady
    rw [(hs.steadyDuty hbetween hfinished channel duty hsteady).1]
    rfl
  · intro _ c duty hsteady
    have hcount := hs.counted hfinished c duty hsteady
    rw [hreading] at hcount
    exact hcount

/-- The rendering of a slice keeps the invariant: the line follows what was read, and the slice is
counted. -/
theorem Inv.render {s : PwmScope} (hs : s.Inv) {slice channel : ℕ} {on : Bool}
    (hwriting : s.controller.worker = .writing slice channel on) (accepted : Bool) :
    Inv { s.renders (s.controller.render slice channel on accepted) channel with
      controller := s.controller.render slice channel on accepted } := by
  have hfinished : s.controller.worker ≠ .finished := by rw [hwriting]; simp
  have hbetween : s.controller.worker ≠ .between := by rw [hwriting]; simp
  have hwithin : slice < s.controller.slices ∧ channel < s.controller.channels := by
    have h := hs.within
    rwa [hwriting] at h
  obtain ⟨line, hrender, hother, hchannel⟩ :=
    s.controller.render_spec slice on accepted (hs.sync hfinished channel)
  rw [hrender]
  have hkept (c : ℕ) (h : (line c).isSome = true) : (s.controller.line c).isSome = true := by
    by_cases hc : c = channel
    · rcases hchannel with hnone | ⟨hsome, -⟩
      · rw [hc, hnone] at h
        cases h
      · rwa [hc]
    · rwa [hother c hc] at h
  have hmark {c : ℕ} (h : Function.update s.quiet channel (s.quiet channel || s.fresh channel) c = true) :
      s.quiet c = true ∨ c = channel ∧ s.fresh c = true := by
    by_cases hc : c = channel
    · rw [hc, Function.update_self, Bool.or_eq_true] at h
      exact h.imp (fun h => hc ▸ h) fun h => ⟨hc, hc ▸ h⟩
    · rw [Function.update_of_ne hc] at h
      exact Or.inl h
  have hoff (hquiet : s.fresh channel = true ∨ s.quiet channel = true)
      (hsome : (s.controller.line channel).isSome = true) : on = false :=
    hs.careful slice channel on hwriting hquiet hsome
  have hsteady (c : ℕ) (duty : ℚ)
      (h : (if line channel = none then Function.update s.steady channel none else s.steady) c = some duty) :
      s.steady c = some duty ∧ (c = channel → (line c).isSome = true) := by
    split at h
    · by_cases hc : c = channel
      · rw [hc, Function.update_self] at h
        cases h
      · rw [Function.update_of_ne hc] at h
        exact ⟨h, fun heq => absurd heq hc⟩
    · rename_i hline
      exact ⟨h, fun hc => hc ▸ Option.isSome_iff_ne_none.mpr hline⟩
  have hmoved : s.controller.advance slice channel ≠ .finished := s.controller.advance_ne_finished _ _
  have hnowriting {slice' c : ℕ} {state : Bool} {q : Prop}
      (h : s.controller.advance slice channel = .writing slice' c state) : q := by
    unfold LibgpiodPwmController.advance at h
    split at h
    · cases h
    split at h <;> cases h
  refine ⟨⟨hs.dutyMem, fun c h => hs.inRange c (hkept c h),
    LibgpiodPwmController.advance_within hwithin.1 hwithin.2, ?_, ?_, fun _ _ _ h => hnowriting h, ?_,
    fun c duty h => hs.steadyMem c duty (hsteady c duty h).1, ?_, fun _ _ _ h => hnowriting h, ?_⟩,
    fun _ c h => hs.honest hfinished c (hkept c h)⟩
  · intro _ c level h
    by_cases hc : c = channel
    · subst hc
      rcases hchannel with hnone | ⟨-, hsome⟩
      · exact absurd (hnone.symm.trans h) (by simp)
      · change level = s.controller.physicalValue (Function.update s.controller.lastState c on c)
        rw [Function.update_self]
        exact Option.some.inj (h.symm.trans hsome)
    · change level = s.controller.physicalValue (Function.update s.controller.lastState channel on c)
      rw [Function.update_of_ne hc]
      exact hs.sync hfinished c level ((hother c hc).symm.trans h)
  · intro c h
    refine hs.marks c (h.elim Or.inl fun hquiet => ?_)
    exact (hmark hquiet).elim Or.inr fun hfresh => Or.inl hfresh.2
  · intro c hquiet hon
    by_cases hc : c = channel
    · subst hc
      have hmarked : s.fresh c = true ∨ s.quiet c = true := (hmark hquiet).symm.imp And.right id
      rcases hchannel with hnone | ⟨hsome, hlevel⟩
      · exact absurd (hnone.symm.trans hon) (by simp)
      · have hvalue := Option.some.inj (hlevel.symm.trans hon)
        have htrue := (s.controller.physicalValue_eq_true on).mp hvalue
        exact Bool.false_ne_true ((hoff hmarked hsome).symm.trans htrue)
    · have hbefore : s.quiet c = true := (hmark hquiet).elim id fun h => absurd h.1 hc
      exact hs.zero c hbefore ((hother c hc).symm.trans hon)
  · intro _ _ c duty h
    obtain ⟨hbefore, hline⟩ := hsteady c duty h
    obtain ⟨hduty, hsome⟩ := hs.steadyDuty hbetween hfinished c duty hbefore
    refine ⟨hduty, ?_⟩
    by_cases hc : c = channel
    · exact hline hc
    · change (line c).isSome = true
      rw [hother c hc]
      exact hsome
  · intro _ c duty h
    obtain ⟨hbefore, hline⟩ := hsteady c duty h
    obtain ⟨-, hsome⟩ := hs.steadyDuty hbetween hfinished c duty hbefore
    have hcount := hs.counted hfinished c duty hbefore
    have hgone := @LibgpiodPwmController.rendered_advance s.controller slice channel c on hwithin.1
      (hs.inRange c hsome)
    rw [hwriting] at hcount
    change ((Function.update s.onCount channel _ c : ℕ) : ℤ) =
      min ((s.controller.advance slice channel).rendered s.controller.slices c : ℤ) (s.controller.onSlices duty)
    rw [hgone]
    by_cases hc : c = channel
    · subst hc
      have hlevel : line c = some (s.controller.physicalValue on) := by
        rcases hchannel with hnone | ⟨-, hlevel⟩
        · rw [hnone] at hline
          exact absurd (hline rfl) Bool.false_ne_true
        · exact hlevel
      have hread := hs.rendering slice c on hwriting duty hbefore
      have hon : LibgpiodPwmController.HeaterOn { s.controller with
          line := line
          lastState := Function.update s.controller.lastState c on
          worker := s.controller.advance slice c } c ↔ (slice : ℤ) < s.controller.onSlices duty := by
        change line c = some (s.controller.physicalValue true) ↔ _
        rw [hlevel, Option.some_inj, LibgpiodPwmController.physicalValue_eq_true, hread, decide_eq_true_iff]
      rw [Function.update_self, if_pos rfl]
      simp only [PwmWorker.rendered, lt_irrefl, if_false] at hcount
      by_cases hslice : (slice : ℤ) < s.controller.onSlices duty
      · rw [if_pos (hon.mpr hslice)]
        push_cast
        omega
      · rw [if_neg fun h => hslice (hon.mp h)]
        push_cast
        omega
    · rw [Function.update_of_ne hc, if_neg hc]
      exact hcount

/-- The worker that ends keeps the invariant: every line is off or given up. -/
theorem Inv.allOff {s : PwmScope} (hs : s.Inv) (refused : List ℕ) :
    Inv { s with controller := s.controller.allOff refused } := by
  have hline (c : ℕ) (level : Bool) (h : (s.controller.allOff refused).line c = some level) :
      (s.controller.line c).isSome = true ∧ level = s.controller.physicalValue false := by
    simp only [LibgpiodPwmController.allOff] at h
    split at h
    · rename_i hsome
      split at h
      · cases h
      · exact ⟨hsome, (Option.some.inj h).symm⟩
    · cases h
  refine ⟨⟨hs.dutyMem, fun c h => ?_, trivial, fun h => absurd rfl h, hs.marks, fun _ _ _ h => ?_,
    fun c _ hon => ?_, hs.steadyMem, fun _ h => absurd rfl h, fun _ _ _ h => ?_, fun h => absurd rfl h⟩,
    fun h => absurd rfl h⟩
  · obtain ⟨level, hlevel⟩ := Option.isSome_iff_exists.mp h
    exact hs.inRange c (hline c level hlevel).1
  · cases h
  · have hvalue := (hline c _ hon).2.symm
    exact Bool.false_ne_true ((s.controller.physicalValue_eq_true false).mp hvalue)
  · cases h

/-- Every step in which the lines come back in step keeps the invariant. -/
theorem inv_step (s : PwmScope) (event : PwmEvent) (hs : s.Inv) (hok : s.InStep event) :
    (s.step event).Inv := by
  cases event with
  | setDuty channel duty =>
    simp only [step, note, LibgpiodPwmController.step, LibgpiodPwmController.setDuty]
    cases hhealthy : s.controller.channelHealthy channel with
    | true => exact ⟨⟨hs.dutyMem, hs.inRange, hs.within, hs.sync, hs.marks, hs.careful, hs.zero, hs.steadyMem,
        hs.steadyDuty, hs.rendering, hs.counted⟩, hs.honest⟩
    | false => exact hs.refused hhealthy
  | store index =>
    simp only [step, note, LibgpiodPwmController.step, LibgpiodPwmController.store]
    cases hcall : s.controller.calls[index]? with
    | none => exact hs
    | some call => exact hs.store call.1 call.2 _
  | retryMissingLines claimed =>
    simp only [step, note, LibgpiodPwmController.step]
    cases hworker : s.controller.worker with
    | between => exact hs.retryMissingLines hworker hok
    | _ => exact hs
  | startPeriod =>
    simp only [step, note, LibgpiodPwmController.step]
    cases hworker : s.controller.worker with
    | between =>
      by_cases hbegins : s.controller.running ∧ 0 < s.controller.slices ∧ 0 < s.controller.channels
      · simp only [if_pos hbegins]
        exact hs.startPeriod hworker hbegins.2.1 hbegins.2.2
      · simp only [if_neg hbegins, hworker]
        exact hs
    | _ => exact hs
  | readDuty =>
    simp only [step, note, LibgpiodPwmController.step]
    cases hworker : s.controller.worker with
    | reading slice channel =>
      by_cases hended : channel = 0 ∧ s.controller.running = false
      · simp only [LibgpiodPwmController.readDuty, if_pos hended, hworker]
        exact hs
      · simp only [LibgpiodPwmController.readDuty, if_neg hended]
        exact hs.readDuty hworker
    | _ => exact hs
  | render accepted =>
    simp only [step, note, LibgpiodPwmController.step]
    cases hworker : s.controller.worker with
    | writing slice channel on => exact hs.render hworker accepted
    | _ => exact hs
  | shutdown => exact ⟨⟨hs.dutyMem, hs.inRange, hs.within, hs.sync, hs.marks, hs.careful, hs.zero, hs.steadyMem,
      hs.steadyDuty, hs.rendering, hs.counted⟩, hs.honest⟩
  | allOff refused =>
    simp only [step, note, LibgpiodPwmController.step]
    split
    · split
      · exact hs
      · exact hs.allOff refused
    · split
      · exact hs
      · exact hs.allOff refused
    · exact hs

end PwmScope

end Coatheal.Heater
