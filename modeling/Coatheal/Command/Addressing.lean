import Coatheal.Command.Dispatch
import Coatheal.Library.Checked

/-!
# Exact addressing

A line is addressed exactly when the number its handler indexes with is the value
of the token that names the motor or the heater, and a token without such a value
is refused. The handlers read a number from the front of a token and narrow it for
the channels, so a sign, characters after the digits and a large number slip
through.
-/

namespace Coatheal.CommandLine

open Coatheal.Library Coatheal.Library.Text Coatheal.Motion

variable {heaters motors : ℕ} {δ : Type*}

/-- The heater a command names. It is absent as a whole when the command names none. -/
def namedHeater : Heater.Command → Option (Option ℕ)
  | .setHeaterDuty index _ | .heaterTest index _ _ | .pidTuneStart index _ _ _ | .setTempTarget index _
  | .clearTempTarget index => some index
  | .setPid all index _ _ _ => if all then none else some index
  | _ => none

namespace Request

/-- The number of a request is the value of its token, in decimal and in bounds. Without a token all
heaters are meant, or the first motor. -/
def Addressed (heaters : ℕ) : Request motors → Prop
  | .heater (some token) command =>
    ∃ value < heaters, wholeNat token = some value ∧ namedHeater command = some (some value)
  | .heater none command => namedHeater command = none
  | .motor (some token) channel entry _ =>
    wholeNat token = some channel.val ∧ ∀ number ∈ entry, number = channel.val
  | .motor none channel entry _ => channel.val = 0 ∧ ∀ number ∈ entry, number = 0
  | .query token channel => wholeNat token = some channel.val

/-- The token is not made of digits only, or its number is changed when it is narrowed to a channel. -/
def Slips : Request motors → Prop
  | .heater (some token) _ => ¬ token.all Char.isDigit = true
  | .motor (some token) channel _ _ | .query token channel =>
    ¬ token.all Char.isDigit = true ∨ ∃ value ∈ parseIndex token, value ≠ channel.val
  | _ => False

/-- How the number of a request came from its token. -/
def Sound : Request motors → Prop
  | .heater (some token) command => namedHeater command = some (parseIndex token)
  | .heater none command => namedHeater command = none
  | .motor (some token) channel entry _ =>
    (∃ value, parseIndex token = some value ∧ ∀ number ∈ entry, number = value) ∨
      wholeNat token = some channel.val ∧ ∀ number ∈ entry, number = channel.val
  | .motor none channel entry _ => channel.val = 0 ∧ ∀ number ∈ entry, number = 0
  | .query token _ => ∃ value, parseIndex token = some value

/-- A token of digits that is read as an index is its own value. -/
theorem wholeNat_of_parseIndex {token : List Char} {value : ℕ} (h : parseIndex token = some value)
    (hdigits : token.all Char.isDigit = true) : wholeNat token = some value := by
  obtain ⟨number, hnumber, rfl⟩ := Option.map_eq_some_iff.mp h
  exact wholeNat_of_stoull hnumber hdigits

/-- A motor whose token does not slip is the value of the token. -/
theorem wholeNat_channel {token : List Char} {channel : Fin motors} {value : ℕ}
    (hindex : parseIndex token = some value)
    (h : ¬ (¬ token.all Char.isDigit = true ∨ ∃ value ∈ parseIndex token, value ≠ channel.val)) :
    wholeNat token = some channel.val ∧ value = channel.val := by
  obtain ⟨hdigits, hsame⟩ := not_or.mp h
  have hvalue : value = channel.val := by
    by_contra hne
    exact hsame ⟨value, hindex, hne⟩
  refine ⟨?_, hvalue⟩
  rw [← hvalue]
  exact wholeNat_of_parseIndex hindex (not_not.mp hdigits)

/-- A sound request that does not slip is addressed, if the heater it names exists. -/
theorem Sound.addressed {request : Request motors} (h : request.Sound) (hslips : ¬ request.Slips)
    (hheater : ∀ token command index, request = .heater token command → namedHeater command = some index →
      ∃ value < heaters, index = some value) : request.Addressed heaters := by
  cases request with
  | heater token command =>
    cases token with
    | none => exact h
    | some token =>
      have hnamed : namedHeater command = some (parseIndex token) := h
      obtain ⟨value, hlt, hindex⟩ := hheater _ _ _ rfl hnamed
      exact ⟨value, hlt, wholeNat_of_parseIndex hindex (not_not.mp hslips), hindex ▸ hnamed⟩
  | motor token channel entry command =>
    cases token with
    | none => exact h
    | some token =>
      rcases h with ⟨value, hparsed, hentry⟩ | haddressed
      · obtain ⟨hwhole, hvalue⟩ := wholeNat_channel hparsed hslips
        exact ⟨hwhole, fun number hnumber => (hentry number hnumber).trans hvalue⟩
      · exact haddressed
  | query token channel =>
    obtain ⟨value, hparsed⟩ := h
    exact (wholeNat_channel hparsed hslips).1

end Request

namespace Onboard

/-- A heater command that passes its checks has passed those before its number is used. -/
theorem checkBeforeHeater_of_check {c : Heater.SystemController heaters} {motionHeld : Bool}
    {command : Heater.Command} (h : c.check motionHeld command = .ok ()) :
    checkBeforeHeater c motionHeld command = .ok () := by
  cases command with
  | setHeaterDuty index duty =>
    obtain ⟨_, hheat, hrest⟩ := Checked.bind_ok h
    cases index with
    | none => cases hrest
    | some index =>
      cases duty with
      | none => cases hrest
      | some duty =>
        obtain ⟨_, hindex, hafter⟩ := Checked.bind_ok hrest
        obtain ⟨_, hduty, -⟩ := Checked.bind_ok hafter
        unfold checkBeforeHeater
        simp only [hheat, hindex, hduty]
        rfl
  | pidTuneStart index setpoint relayDuty cycles =>
    by_cases hmode : c.mode ≠ .run
    · simp only [Heater.SystemController.check, if_pos hmode] at h
      cases h
    · simp only [Heater.SystemController.check, if_neg hmode] at h
      obtain ⟨_, hindex, hafter⟩ := Checked.bind_ok h
      obtain ⟨_, hrange, hrest⟩ := Checked.bind_ok hafter
      have hrelay : checkRelayDuty relayDuty = .ok () := by
        rcases relayDuty with _ | _ | duty
        · rfl
        · cases hrest
        · by_cases hduty : duty ≤ 0 ∨ 1 < duty
          · simp only [if_pos hduty] at hrest
            cases hrest
          · exact if_neg hduty
      have hcycles : checkCycles cycles = .ok () := by
        rcases cycles with _ | _ | count
        · rfl
        · rcases relayDuty with _ | _ | duty
          · cases hrest
          · cases hrest
          · by_cases hduty : duty ≤ 0 ∨ 1 < duty
            · simp only [if_pos hduty] at hrest
              cases hrest
            · simp only [if_neg hduty] at hrest
              cases hrest
        · by_cases hcount : count < 1 ∨ 10 < count
          · simp only [if_pos hcount] at hrest
            rcases relayDuty with _ | _ | duty
            · cases hrest
            · cases hrest
            · by_cases hduty : duty ≤ 0 ∨ 1 < duty
              · simp only [if_pos hduty] at hrest
                cases hrest
              · simp only [if_neg hduty] at hrest
                cases hrest
          · exact if_neg hcount
      unfold checkBeforeHeater
      simp only [if_neg hmode, hindex, hrange, hrelay, hcycles]
      rfl
  | setTempTarget index target =>
    obtain ⟨_, hheat, hrest⟩ := Checked.bind_ok h
    cases index with
    | none => cases hrest
    | some index =>
      cases target with
      | none => cases hrest
      | some target =>
        by_cases hindex : heaters ≤ index
        · simp only [if_pos hindex] at hrest
          cases hrest
        · simp only [if_neg hindex] at hrest
          obtain ⟨_, hrange, -⟩ := Checked.bind_ok hrest
          unfold checkBeforeHeater
          simp only [hheat, if_neg hindex, hrange]
          rfl
  | _ => exact h

/-- A heater command whose number is used names a heater that exists. -/
theorem namedHeater_lt {c : Heater.SystemController heaters} {motionHeld : Bool} {command : Heater.Command}
    {index : Option ℕ} (h : checkBeforeHeater c motionHeld command = .ok ())
    (hnamed : namedHeater command = some index) : ∃ value < heaters, index = some value := by
  have hchecked {index : Option ℕ} {done : Unit}
      (hcheck : Heater.SystemController.checkIndex heaters index = .ok done) :
      ∃ value < heaters, index = some value := by
    unfold Heater.SystemController.checkIndex at hcheck
    split at hcheck
    case h_1 value =>
      split at hcheck
      case isTrue hlt => exact ⟨value, hlt, rfl⟩
      case isFalse => cases hcheck
    case h_2 => cases hcheck
  cases command with
  | setHeaterDuty named duty =>
    cases hnamed
    obtain ⟨_, -, hrest⟩ := Checked.bind_ok h
    cases index with
    | none => cases hrest
    | some value =>
      cases duty with
      | none => cases hrest
      | some duty =>
        obtain ⟨_, hindex, -⟩ := Checked.bind_ok hrest
        exact hchecked hindex
  | heaterTest named duty seconds =>
    cases hnamed
    have hcheck : c.check motionHeld (.heaterTest index duty seconds) = .ok () := h
    unfold Heater.SystemController.check at hcheck
    dsimp only at hcheck
    split at hcheck
    · cases hcheck
    split at hcheck
    · cases hcheck
    split at hcheck
    · cases hcheck
    split at hcheck
    · cases hcheck
    split at hcheck
    case h_1 value duty seconds =>
      split at hcheck
      · cases hcheck
      case isFalse hlt => exact ⟨value, not_le.mp hlt, rfl⟩
    · cases hcheck
  | setPid all named kp ki kd =>
    have hcheck : c.check motionHeld (.setPid all named kp ki kd) = .ok () := h
    cases all with
    | true => cases hnamed
    | false =>
      cases hnamed
      unfold Heater.SystemController.check at hcheck
      dsimp only at hcheck
      split at hcheck
      · split at hcheck
        · cases hcheck
        · exact hchecked hcheck
      · cases hcheck
  | pidTuneStart named setpoint relayDuty cycles =>
    cases hnamed
    by_cases hmode : c.mode ≠ .run
    · simp only [checkBeforeHeater, if_pos hmode] at h
      cases h
    · simp only [checkBeforeHeater, if_neg hmode] at h
      obtain ⟨_, hindex, -⟩ := Checked.bind_ok h
      exact hchecked hindex
  | setTempTarget named target =>
    cases hnamed
    obtain ⟨_, -, hrest⟩ := Checked.bind_ok h
    cases index with
    | none => cases hrest
    | some value =>
      cases target with
      | none => cases hrest
      | some target =>
        by_cases hlt : heaters ≤ value
        · simp only [if_pos hlt] at hrest
          cases hrest
        · exact ⟨value, not_le.mp hlt, rfl⟩
  | clearTempTarget named =>
    cases hnamed
    exact hchecked h
  | _ => cases hnamed

/-- A line is addressed exactly: the number that its handler comes to index with is the value of its token,
and a token without such a value is refused, which leaves the state. -/
structure Exact (platform : Platform ℚ δ) (s : Onboard heaters motors δ) (now : ℤ) (line : List Char) :
    Prop where
  addressed : ∀ request, s.uses platform line = some request → request.Addressed heaters
  refused : ∀ request, s.asked line = some (.ok request) → ¬ request.Addressed heaters →
    ∃ text, s.handleCommandLine platform now line = some (.refused text) ∧
      s.after (.refused text) = some s

/-- Two heaters and the two motors of the bench. -/
def bench : Onboard 2 2 SimulatedStepperDriver :=
  ⟨.new {} ⟨2, 0, 0, 0⟩ false, .bench, true⟩

end Onboard

end Coatheal.CommandLine
