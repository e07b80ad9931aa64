import Coatheal.Library.Numeric
import Mathlib.Data.Rat.Floor

/-!
# The software PWM of the heater lines

One worker thread cuts a period into slices and compares, in each slice of each
channel, the stored duty with the slice; the line is written on a change of the
last recorded state. Other threads store duties. A line whose write fails loses
its handle, and the worker asks for missing lines between periods. Every access
under one of the two locks is a step of its own.
-/

namespace Coatheal.Heater

open Coatheal.Library

/-- Where the worker thread is: between two periods, before the read of a channel's duty in a slice,
before acting on what it read, or through. -/
inductive PwmWorker where
  | between
  | reading (slice channel : ℕ)
  | writing (slice channel : ℕ) (on : Bool)
  | finished
deriving DecidableEq, Repr

/-- The controller of the heater lines. A line with a handle is driven to a physical level; the calls
are those past the health check that have not stored their duty yet. -/
structure LibgpiodPwmController where
  slices : ℕ
  channels : ℕ
  activeHigh : Bool
  duty : ℕ → ℚ
  line : ℕ → Option Bool
  lastState : ℕ → Bool
  running : Bool
  worker : PwmWorker
  calls : List (ℕ × ℚ)

namespace LibgpiodPwmController

/-- The physical level that switches a heater on or off. -/
def physicalValue (p : LibgpiodPwmController) (on : Bool) : Bool := if on then p.activeHigh else !p.activeHigh

/-- The line is driven to the level that switches the heater on. -/
def HeaterOn (p : LibgpiodPwmController) (channel : ℕ) : Prop := p.line channel = some (p.physicalValue true)

instance (p : LibgpiodPwmController) (channel : ℕ) : Decidable (p.HeaterOn channel) :=
  inferInstanceAs (Decidable (p.line channel = some (p.physicalValue true)))

/-- A new controller: the lines that were claimed are driven to the off level. -/
def new (slices channels : ℕ) (activeHigh : Bool) (claimed : List ℕ) : LibgpiodPwmController where
  slices := slices
  channels := channels
  activeHigh := activeHigh
  duty _ := 0
  line channel := if channel < channels ∧ channel ∈ claimed then some (!activeHigh) else none
  lastState _ := false
  running := true
  worker := .between
  calls := []

/-- The line of a channel is there. -/
def channelHealthy (p : LibgpiodPwmController) (channel : ℕ) : Bool :=
  decide (channel < p.channels) && (p.line channel).isSome

/-- A call to set a duty: without a line it is refused, otherwise it goes on to store. -/
def setDuty (p : LibgpiodPwmController) (channel : ℕ) (duty : ℚ) : LibgpiodPwmController :=
  if p.channelHealthy channel then { p with calls := p.calls ++ [(channel, duty)] } else p

/-- One of the calls under way stores its duty. -/
def store (p : LibgpiodPwmController) (index : ℕ) : LibgpiodPwmController :=
  match p.calls[index]? with
  | some (channel, duty) =>
    { p with
      duty := Function.update p.duty channel (clamp duty 0 1)
      calls := p.calls.eraseIdx index }
  | none => p

/-- Write a line; when the write is not accepted the handle is given up. -/
def writeLine (p : LibgpiodPwmController) (channel : ℕ) (on accepted : Bool) : LibgpiodPwmController :=
  if (p.line channel).isSome then
    { p with line := Function.update p.line channel (if accepted then some (p.physicalValue on) else none) }
  else p

/-- Ask for the lines without a handle; those that are given are driven to the off level. -/
def retryMissingLines (p : LibgpiodPwmController) (claimed : List ℕ) : LibgpiodPwmController :=
  { p with line := fun channel =>
      if p.line channel = none ∧ channel < p.channels ∧ channel ∈ claimed then some (p.physicalValue false)
      else p.line channel }

/-- The number of slices a duty is on for. -/
def onSlices (p : LibgpiodPwmController) (duty : ℚ) : ℤ := llround (duty * p.slices)

/-- The next channel, after the last one the next slice, and after the last slice the end of the period. -/
def advance (p : LibgpiodPwmController) (slice channel : ℕ) : PwmWorker :=
  if channel + 1 < p.channels then .reading slice (channel + 1)
  else if slice + 1 < p.slices then .reading (slice + 1) 0
  else .between

/-- The worker reads the duty of a channel and compares it with the slice; at the start of a slice it
first looks whether it is to go on. -/
def readDuty (p : LibgpiodPwmController) (slice channel : ℕ) : LibgpiodPwmController :=
  if channel = 0 ∧ p.running = false then p
  else { p with worker := .writing slice channel (decide ((slice : ℤ) < p.onSlices (p.duty channel))) }

/-- The worker writes the line if the state changes, and records the state whatever came of it. -/
def render (p : LibgpiodPwmController) (slice channel : ℕ) (on accepted : Bool) : LibgpiodPwmController :=
  let written := if on ≠ p.lastState channel then p.writeLine channel on accepted else p
  { written with
    lastState := Function.update p.lastState channel on
    worker := p.advance slice channel }

/-- The worker switches every line off and ends. -/
def allOff (p : LibgpiodPwmController) (refused : List ℕ) : LibgpiodPwmController :=
  { p with
    line := fun channel =>
      if (p.line channel).isSome then
        if channel ∈ refused then none else some (p.physicalValue false)
      else none
    worker := .finished }

end LibgpiodPwmController

/-- A step of one of the threads. What the lines accept comes from outside. -/
inductive PwmEvent where
  | setDuty (channel : ℕ) (duty : ℚ)
  | store (index : ℕ)
  | retryMissingLines (claimed : List ℕ)
  | startPeriod
  | readDuty
  | render (accepted : Bool)
  | shutdown
  | allOff (refused : List ℕ)
deriving DecidableEq

namespace LibgpiodPwmController

/-- One step. A step the worker is not at does nothing. -/
def step (p : LibgpiodPwmController) : PwmEvent → LibgpiodPwmController
  | .setDuty channel duty => p.setDuty channel duty
  | .store index => p.store index
  | .retryMissingLines claimed =>
    match p.worker with
    | .between => p.retryMissingLines claimed
    | _ => p
  | .startPeriod =>
    match p.worker with
    | .between => if p.running ∧ 0 < p.slices ∧ 0 < p.channels then { p with worker := .reading 0 0 } else p
    | _ => p
  | .readDuty =>
    match p.worker with
    | .reading slice channel => p.readDuty slice channel
    | _ => p
  | .render accepted =>
    match p.worker with
    | .writing slice channel on => p.render slice channel on accepted
    | _ => p
  | .shutdown => { p with running := false }
  | .allOff refused =>
    match p.worker with
    | .between | .reading _ 0 => if p.running then p else p.allOff refused
    | _ => p

/-- A level is the one that switches the heater on exactly when it is written for on. -/
theorem physicalValue_eq_true (p : LibgpiodPwmController) (on : Bool) :
    p.physicalValue on = p.physicalValue true ↔ on = true := by
  cases on <;> cases h : p.activeHigh <;> simp [physicalValue, h]

/-- A duty of nothing or less is on for no slice once it is stored. -/
theorem onSlices_of_nonpos (p : LibgpiodPwmController) {duty : ℚ} (h : duty ≤ 0) :
    p.onSlices (clamp duty 0 1) = 0 := by
  rw [onSlices, clamp_of_le h zero_le_one, zero_mul]
  norm_num [llround]

/-- A duty in the range is on for some of the slices of a period, at most all. -/
theorem onSlices_mem (p : LibgpiodPwmController) {duty : ℚ} (hlow : 0 ≤ duty) (hhigh : duty ≤ 1) :
    0 ≤ p.onSlices duty ∧ p.onSlices duty ≤ p.slices := by
  have hproduct : 0 ≤ duty * p.slices := mul_nonneg hlow (Nat.cast_nonneg _)
  have hbound : duty * p.slices ≤ p.slices := mul_le_of_le_one_left (Nat.cast_nonneg _) hhigh
  rw [onSlices, llround, if_pos hproduct]
  refine ⟨Int.floor_nonneg.mpr (by linarith), ?_⟩
  have hfloor : ⌊duty * p.slices + 1 / 2⌋ < (p.slices : ℤ) + 1 := Int.floor_lt.mpr (by push_cast; linarith)
  omega

end LibgpiodPwmController

end Coatheal.Heater
