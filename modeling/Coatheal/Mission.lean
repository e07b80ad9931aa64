import Mathlib.Data.List.Basic

/-!
# Mission phases and system modes

The phase labels the flight and never starts anything; the mode decides what
the operator may command.
-/

namespace Coatheal

/-- The phase of the mission. -/
inductive MissionPhase where
  | boot
  | ascent
  | preFloat
  | float
  | descent
  | landed
  | stopped
deriving DecidableEq, Repr

/-- Ascent, pre-float, float and descent. -/
def MissionPhase.flying : MissionPhase → Bool
  | .ascent | .preFloat | .float | .descent => true
  | .boot | .landed | .stopped => false

/-- The mode of the onboard system. -/
inductive SystemMode where
  | standby
  | run
  | safe
deriving DecidableEq, Repr

end Coatheal
