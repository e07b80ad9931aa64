import Coatheal.Config.Accepted
import Coatheal.Fallback.FlightPhase
import Coatheal.Heater.Allocation
import Coatheal.Motion.Operations

/-!
# What the runtime relies on

An accepted configuration gives each heater one line, or no heater any; no line twice on a chip written the
same way; samples in range; and limits under which the scheduler keeps three heaters within fifteen watts.
What the checks leave open is met where it is used: the debounce count is at least one whatever is
configured, and a pull beyond the travel limit is refused when it is armed.
-/

namespace Coatheal.Config

open Library
open Wiring (LayoutMaps deriveLayoutFromSpecimens fillMaps)

namespace OnboardConfig

variable (config : OnboardConfig)

/-- The limits that the scheduler is given. -/
def schedulerPower : Heater.PowerConfig ℚ where
  maxActiveHeaters := config.power.maxActiveHeaters
  maxThermalW := config.power.maxThermalW
  heaterNominalW := config.power.heaterNominalW
  energyBudgetWh := config.power.energyBudgetWh

/-- No sample is pulled by both motors. -/
def Apart : Prop := ∀ sample ∈ config.motor0.samples, sample ∉ config.motor1.samples

variable {config} {nearest : ℚ → ℚ} {bySpecimens : Bool}

/-- The limits of an accepted configuration pass the checks of the scheduler. -/
theorem Accepted.power (h : config.Accepted nearest bySpecimens) :
    config.power.maxActiveHeaters ≤ 3 ∧ config.power.maxThermalW ≤ 15 ∧ config.schedulerPower.check = .ok () := by
  obtain ⟨hpower, -⟩ := h.rows
  simp only [powerChecks, List.forall_mem_cons, decide_eq_true_eq] at hpower
  obtain ⟨-, -, -, -, -, -, -, -, -, ⟨hnone, hthree⟩, ⟨hpositive, hfifteen⟩, -⟩ := hpower
  have hactive : ¬ (config.schedulerPower.maxActiveHeaters = 0 ∨ 3 < config.schedulerPower.maxActiveHeaters) := by
    rintro (hzero | hmore)
    · exact hnone hzero
    · exact absurd hthree (not_le.mpr hmore)
  have hthermal : ¬ (¬ 0 < config.schedulerPower.maxThermalW ∨
      ((15 : ℕ) : ℚ) < config.schedulerPower.maxThermalW) := by
    rintro (hnot | hmore)
    · exact hnot hpositive
    · exact absurd hfifteen (not_le.mpr hmore)
  refine ⟨hthree, hfifteen, ?_⟩
  unfold Heater.PowerConfig.check
  rw [if_neg hactive, if_neg hthermal]

/-- The pull of an accepted configuration is a positive number of steps at one of the divisors. -/
theorem Accepted.pull (h : config.Accepted nearest bySpecimens) :
    0 < config.pull.travelFullSteps ∧ 0 < config.pull.microstep ∧ config.pull.microstep ≤ 256 := by
  obtain ⟨-, -, hmotion, -⟩ := h.rows
  simp only [motionChecks, List.forall_mem_cons, decide_eq_true_eq] at hmotion
  obtain ⟨-, -, -, -, -, -, -, ⟨-, -, -, hdivisor, htravel, -⟩, -⟩ := hmotion
  refine ⟨htravel, ?_⟩
  obtain ⟨divisor, hin, hsame⟩ := List.any_eq_true.mp hdivisor
  rw [← of_decide_eq_true hsame]
  have hall : ∀ divisor ∈ ([1, 2, 4, 8, 16, 32, 64, 128, 256] : List ℤ), 0 < divisor ∧ divisor ≤ 256 := by decide
  exact hall divisor hin

end OnboardConfig

end Coatheal.Config
