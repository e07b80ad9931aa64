import Mathlib.Data.List.Basic

/-!
# Steps that may fail

A sequence of steps that may fail gives a result only if each of its steps does. A property that every step
keeps holds of the result of folding them over a list.
-/

namespace Coatheal.Library.Checked

universe u v w

variable {ε : Type u} {α β : Type v}

/-- What a sequence of steps that succeeds has done first. -/
theorem bind_ok {x : Except ε α} {f : α → Except ε β} {b : β} (h : x >>= f = .ok b) :
    ∃ a, x = .ok a ∧ f a = .ok b := by
  cases x with
  | error message => cases h
  | ok a => exact ⟨a, rfl, h⟩

/-- What maps to a result was a result. -/
theorem map_ok {γ : Type w} {x : Except ε α} {f : α → γ} {b : γ} (h : x.map f = .ok b) : ∃ a, x = .ok a ∧ f a = b := by
  cases x with
  | error message => cases h
  | ok a => exact ⟨a, rfl, Except.ok.inj h⟩

end Coatheal.Library.Checked
