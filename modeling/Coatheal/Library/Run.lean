import Mathlib.Data.List.Basic

/-!
# Runs of a state machine and the invariants they keep

A machine is a step function from a state and an input to the next state. The
rules below turn facts about one step into facts about every run: an invariant
kept by the steps that meet a condition, and the exact condition under which a
property holds in every state of a run.
-/

namespace Coatheal.Library

variable {σ ι : Type*}

/-- Take the inputs in order, starting from a state. -/
def run (step : σ → ι → σ) (start : σ) (inputs : List ι) : σ :=
  inputs.foldl step start

/-- The empty run stays where it is. -/
@[simp]
theorem run_nil (step : σ → ι → σ) (start : σ) : run step start [] = start := rfl

/-- A run takes its first input first. -/
@[simp]
theorem run_cons (step : σ → ι → σ) (start : σ) (input : ι) (rest : List ι) :
    run step start (input :: rest) = run step (step start input) rest := rfl

/-- A run over two lists is the run over the second from where the first one ends. -/
theorem run_append (step : σ → ι → σ) (start : σ) (first second : List ι) :
    run step start (first ++ second) = run step (run step start first) second :=
  List.foldl_append

/-- Every input of the run meets a condition in the state it is taken in. -/
def Meets (step : σ → ι → σ) (ok : σ → ι → Prop) : σ → List ι → Prop
  | _, [] => True
  | s, input :: rest => ok s input ∧ Meets step ok (step s input) rest

/-- A property holds in every state the run goes through, both ends included. -/
def Holds (step : σ → ι → σ) (good : σ → Prop) : σ → List ι → Prop
  | s, [] => good s
  | s, input :: rest => good s ∧ Holds step good (step s input) rest

/-- A run can be checked against its condition. -/
instance decidableMeets {step : σ → ι → σ} {ok : σ → ι → Prop} [∀ s input, Decidable (ok s input)] :
    (start : σ) → (inputs : List ι) → Decidable (Meets step ok start inputs)
  | _, [] => inferInstanceAs (Decidable True)
  | start, input :: rest =>
    have : Decidable (Meets step ok (step start input) rest) := decidableMeets (step start input) rest
    inferInstanceAs (Decidable (ok start input ∧ Meets step ok (step start input) rest))

/-- A run meets a condition that each of its inputs meets in any state. -/
theorem meets_of_forall {step : σ → ι → σ} {ok : σ → ι → Prop} {inputs : List ι}
    (h : ∀ input ∈ inputs, ∀ s, ok s input) (start : σ) : Meets step ok start inputs := by
  induction inputs generalizing start with
  | nil => trivial
  | cons input rest ih =>
    exact ⟨h input List.mem_cons_self start, ih (fun other hother => h other (List.mem_cons_of_mem _ hother)) _⟩

/-- A run meets its condition together with one that each of its inputs meets by itself. -/
theorem Meets.and_inputs {step : σ → ι → σ} {ok : σ → ι → Prop} {alone : ι → Prop} {start : σ} {inputs : List ι}
    (h : Meets step ok start inputs) (halone : ∀ input ∈ inputs, alone input) :
    Meets step (fun s input => alone input ∧ ok s input) start inputs := by
  induction inputs generalizing start with
  | nil => trivial
  | cons input rest ih =>
    exact ⟨⟨halone input List.mem_cons_self, h.1⟩,
      ih h.2 fun other hother => halone other (List.mem_cons_of_mem _ hother)⟩

/-- A run meets its condition on a first part and, from there, on the rest. -/
theorem meets_append {step : σ → ι → σ} {ok : σ → ι → Prop} {start : σ} {first second : List ι} :
    Meets step ok start (first ++ second) ↔
      Meets step ok start first ∧ Meets step ok (run step start first) second := by
  induction first generalizing start with
  | nil => simp [Meets]
  | cons input rest ih => simp [Meets, ih, and_assoc]

/-- A property of every state of a run holds at its end. -/
theorem Holds.last {step : σ → ι → σ} {good : σ → Prop} {start : σ} {inputs : List ι}
    (h : Holds step good start inputs) : good (run step start inputs) := by
  induction inputs generalizing start with
  | nil => exact h
  | cons input rest ih => exact ih h.2

/-- A property of every state can be weakened. -/
theorem Holds.mono {step : σ → ι → σ} {good weaker : σ → Prop} (himp : ∀ s, good s → weaker s) {start : σ}
    {inputs : List ι} (h : Holds step good start inputs) : Holds step weaker start inputs := by
  induction inputs generalizing start with
  | nil => exact himp start h
  | cons input rest ih => exact ⟨himp start h.1, ih h.2⟩

/-- A property of every state of a run holds after each of its initial segments. -/
theorem holds_iff_segments {step : σ → ι → σ} {good : σ → Prop} {start : σ} {inputs : List ι} :
    Holds step good start inputs ↔ ∀ taken, taken <+: inputs → good (run step start taken) := by
  induction inputs generalizing start with
  | nil => simp [Holds]
  | cons input rest ih =>
    simp only [Holds, ih]
    constructor
    · rintro ⟨hnow, hrest⟩ taken htaken
      rcases List.prefix_cons_iff.mp htaken with rfl | ⟨tail, rfl, htail⟩
      · exact hnow
      · exact hrest tail htail
    · intro h
      refine ⟨h [] List.nil_prefix, fun taken htaken => ?_⟩
      exact h (input :: taken) ((List.cons_prefix_cons).mpr ⟨rfl, htaken⟩)

/-- An invariant kept by every step that meets the condition holds at the end of the run. -/
theorem run_invariant {step : σ → ι → σ} {ok : σ → ι → Prop} {inv : σ → Prop}
    (hstep : ∀ s input, inv s → ok s input → inv (step s input)) {start : σ} {inputs : List ι}
    (hstart : inv start) (hmeets : Meets step ok start inputs) : inv (run step start inputs) := by
  induction inputs generalizing start with
  | nil => exact hstart
  | cons input rest ih => exact ih (hstep start input hstart hmeets.1) hmeets.2

/-- An invariant kept by every step that meets the condition holds in every state of the run. -/
theorem holds_of_meets {step : σ → ι → σ} {ok : σ → ι → Prop} {inv good : σ → Prop}
    (hstep : ∀ s input, inv s → ok s input → inv (step s input)) (hgood : ∀ s, inv s → good s)
    {start : σ} {inputs : List ι} (hstart : inv start) (hmeets : Meets step ok start inputs) :
    Holds step good start inputs := by
  induction inputs generalizing start with
  | nil => exact hgood start hstart
  | cons input rest ih =>
    exact ⟨hgood start hstart, ih (hstep start input hstart hmeets.1) hmeets.2⟩

/-- An invariant kept by every step holds in every state of the run. -/
theorem holds_of_step {step : σ → ι → σ} {inv good : σ → Prop}
    (hstep : ∀ s input, inv s → inv (step s input)) (hgood : ∀ s, inv s → good s)
    {start : σ} (hstart : inv start) (inputs : List ι) : Holds step good start inputs := by
  induction inputs generalizing start with
  | nil => exact hgood start hstart
  | cons input rest ih => exact ⟨hgood start hstart, ih (hstep start input hstart)⟩

/-- The exact rule: when a step keeps the invariant if it meets the condition and breaks the
property if it does not, the property holds in every state of a run exactly when every step of
the run meets the condition. -/
theorem holds_iff_meets {step : σ → ι → σ} {ok : σ → ι → Prop} {inv good : σ → Prop}
    (hstep : ∀ s input, inv s → ok s input → inv (step s input)) (hgood : ∀ s, inv s → good s)
    (hbad : ∀ s input, inv s → ¬ ok s input → ¬ good (step s input))
    {start : σ} {inputs : List ι} (hstart : inv start) :
    Holds step good start inputs ↔ Meets step ok start inputs := by
  refine ⟨fun h => ?_, holds_of_meets hstep hgood hstart⟩
  induction inputs generalizing start with
  | nil => trivial
  | cons input rest ih =>
    have hok : ok start input := by
      by_contra hno
      have hnext : good (step start input) := (holds_iff_segments.mp h.2) [] List.nil_prefix
      exact hbad start input hstart hno hnext
    exact ⟨hok, ih (hstep start input hstart hok) h.2⟩

end Coatheal.Library
