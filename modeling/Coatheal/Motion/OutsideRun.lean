import Coatheal.Fallback.Decision
import Coatheal.Motion.Deck

/-!
# No new motion outside RUN

An observer notes every motor that a control tick sends somewhere while the mode
is not RUN. Bend sequences ask nobody for the mode, so what matters is whether a
tick outside RUN finds a sequence that is due: it runs, it is not paused, and
its step is either not queued or looks finished with another one to follow.
-/

namespace Coatheal.Motion

open Coatheal.Library Coatheal.Fallback

variable {n : ℕ} {δ : Type*}

/-- The deck and the motors a tick sent somewhere outside RUN. -/
structure Observed (n : ℕ) (δ : Type*) where
  deck : Deck n δ
  sentOutsideRun : List (Fin n)

namespace Observed

/-- The motor that a section of a tick sends somewhere. -/
def sends (hal : StepperDriver ℚ δ) (d : Deck n δ) : DeckEvent n δ → Option (Fin n)
  | .sequenceTick motor =>
    match (d.sequences motor).nextMove (d.busy motor) (d.rig.channels motor) with
    | .rest _ => none
    | .send _ _ => some motor
  | .planTick phase now groupTempC => (d.planAction hal phase now groupTempC).2.map (·.motorId)
  | _ => none

/-- One event, seen by the observer. -/
def step (platform : Platform ℚ δ) (o : Observed n δ) (event : DeckEvent n δ) : Observed n δ where
  deck := o.deck.step platform event
  sentOutsideRun :=
    if o.deck.mode = .run then o.sentOutsideRun
    else o.sentOutsideRun ++ (sends platform.hal o.deck event).toList

/-- Nothing has been seen of a deck that starts. -/
def start (d : Deck n δ) : Observed n δ := ⟨d, []⟩

end Observed

end Coatheal.Motion
