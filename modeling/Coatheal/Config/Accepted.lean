import Coatheal.Config.Checks
import Coatheal.Library.Checked

/-!
# What an accepted configuration keeps

A configuration is accepted when all checks hold. Its layout then passes the checks of the layout alone, no
line of a chip is claimed twice, and the numbers that were read are in the ranges of their types.
-/

namespace Coatheal.Config

open Library
open Wiring (LayoutConfig LayoutMaps reservedGpioLines)

/-- The line of a claim, on its chip. -/
def Claim.key (claim : Claim) : List Char × ℕ := (claim.chip, claim.line)

/-- Claims are the same when their lines are. -/
theorem Claim.same_iff {first second : Claim} : first.same second = true ↔ first.key = second.key := by
  simp [Claim.same, Claim.key]

/-- Claims that pass are of different lines, also of those owned before. -/
theorem nodup_of_claimChecks {owned claims : List Claim} (howned : (owned.map Claim.key).Nodup)
    (h : ∀ check ∈ claimChecks owned claims, check.holds = true) : ((owned ++ claims).map Claim.key).Nodup := by
  induction claims generalizing owned with
  | nil => rwa [List.append_nil]
  | cons claim rest ih =>
    obtain ⟨hfirst, hrest⟩ := List.forall_mem_cons.mp h
    have hnone : owned.find? claim.same = none := by
      cases hfind : owned.find? claim.same with
      | none => rfl
      | some first =>
        rw [hfind] at hfirst
        cases hfirst
    have hfree : claim.key ∉ owned.map Claim.key := by
      intro hin
      obtain ⟨other, hother, hkey⟩ := List.mem_map.mp hin
      exact List.find?_eq_none.mp hnone other hother (Claim.same_iff.mpr hkey.symm)
    have hmore : ((owned ++ [claim]).map Claim.key).Nodup := by
      rw [List.map_append, List.map_singleton, ← List.concat_eq_append]
      exact List.Nodup.concat hfree howned
    have hall := ih hmore hrest
    rwa [List.append_assoc] at hall

/-- What a key stores keeps a property, for a value that its kind can have. -/
def Entry.Keeps {C : Type} (property : C → Prop) : Entry C → Prop
  | .bool store => ∀ config value, property config → property (store config value)
  | .int store => ∀ config value, value < 2 ^ 31 → property config → property (store config value)
  | .u64 store | .size store => ∀ config value, property config → property (store config value)
  | .double store => ∀ config value, property config → property (store config value)
  | .i64 store => ∀ config value, property config → property (store config value)
  | .text store => ∀ config value, property config → property (store config value)
  | .sizeList _ store => ∀ config value, property config → property (store config value)
  | .specimens store => ∀ config value, property config → property (store config value)

/-- What is stored was read. -/
theorem stored_eq_ok {C α : Type} {config after : C} {store : C → α → C} {message : String} {value : Option α}
    (h : stored config store message value = .ok after) : ∃ read, value = some read ∧ after = store config read := by
  cases value with
  | none => cases h
  | some read => exact ⟨read, rfl, (Except.ok.inj h).symm⟩

/-- A signed integer that is read is below the bound of its bits. -/
theorem lt_of_parseSigned {bits : ℕ} {value : List Char} {number : ℤ} (h : parseSigned bits value = some number) :
    number < 2 ^ (bits - 1) := by
  unfold parseSigned at h
  obtain ⟨magnitude, -, h⟩ := Option.bind_eq_some_iff.mp h
  obtain ⟨hrange, h⟩ := Option.ite_none_right_eq_some.mp h
  obtain rfl := Option.some.inj h
  exact hrange.2

/-- A value that is read keeps what its key keeps. -/
theorem Entry.Keeps.read {C : Type} {property : C → Prop} {nearest : ℚ → ℚ} {entry : Entry C} {config after : C}
    {key : String} {value : List Char} {lineNo : ℕ} (h : entry.Keeps property)
    (hread : entry.read nearest config key value lineNo = .ok after) (hconfig : property config) : property after := by
  cases entry with
  | text store =>
    obtain rfl := Except.ok.inj hread
    exact h config value hconfig
  | int store =>
    obtain ⟨number, hnumber, rfl⟩ := stored_eq_ok hread
    exact h config number (lt_of_parseSigned hnumber) hconfig
  | _ store =>
    obtain ⟨read, -, rfl⟩ := stored_eq_ok hread
    exact h config read hconfig

namespace OnboardConfig

variable {nearest : ℚ → ℚ} (config : OnboardConfig)

/-- The lines that are in use, each on its chip as it is written: the reserved ones, those of the heaters and
of the motors, and those of the LEDs that are enabled. -/
def gpioLines : List (List Char × ℕ) :=
  reservedGpioLines.map (fun line => (config.runtime.gpioChip, line)) ++
    config.heaters.outputLines.map (fun line => (config.runtime.gpioChip, line)) ++
    config.motors.flatMap (fun motor => [(motor.gpioChip, motor.csLine), (motor.gpioChip, motor.enableLine)]) ++
    (if config.hal.statusLedEnabled then [(config.runtime.gpioChip, config.hal.statusLedLine)] else []) ++
    if config.hal.modeLedEnabled then [(config.runtime.gpioChip, config.hal.modeLedLine)] else []

/-- The claims are of the lines in use. -/
theorem map_key_claims (bySpecimens : Bool) :
    (config.boardClaims bySpecimens ++ config.ledClaims).map Claim.key = config.gpioLines := by
  have hheaters : (config.heaters.outputLines.zipIdx.map fun line =>
      (⟨config.runtime.gpioChip, line.1, config.heaterOwner bySpecimens line.2⟩ : Claim)).map Claim.key =
        config.heaters.outputLines.map fun line => (config.runtime.gpioChip, line) := by
    rw [List.map_map]
    conv_rhs => rw [← List.zipIdx_map_fst 0 config.heaters.outputLines, List.map_map]
    rfl
  have hleds : config.ledClaims.map Claim.key =
      (if config.hal.statusLedEnabled then [(config.runtime.gpioChip, config.hal.statusLedLine)] else []) ++
        if config.hal.modeLedEnabled then [(config.runtime.gpioChip, config.hal.modeLedLine)] else [] := by
    unfold ledClaims
    rw [List.map_append]
    congr 1
    · split <;> rfl
    · split <;> rfl
  rw [List.map_append, hleds, boardClaims, List.map_append, List.map_append, hheaters, gpioLines, List.append_assoc _ _
    (if config.hal.modeLedEnabled then _ else _)]
  rfl

/-- What the layout hangs on. -/
def layout : LayoutConfig where
  sampleCount := config.hardware.sampleCount
  heaterCount := config.hardware.heaterCount
  maps :=
    { sequentRtdChannels := config.sensors.sequentRtdChannels
      max31865SampleIndices := config.sensors.max31865SampleIndices
      outputLines := config.heaters.outputLines
      temperatureChannels := config.heaters.temperatureChannels
      motorSamples := config.motors.map MotorConfig.samples }

/-- All checks of a configuration hold. -/
def Accepted (nearest : ℚ → ℚ) (bySpecimens : Bool) : Prop :=
  ∀ check ∈ config.checks nearest bySpecimens, check.holds = true

variable {config} {bySpecimens : Bool}

/-- The rows of checks, each by itself. -/
theorem Accepted.rows (h : config.Accepted nearest bySpecimens) :
    (∀ check ∈ config.powerChecks, check.holds = true) ∧ (∀ check ∈ config.sensorChecks, check.holds = true) ∧
      (∀ check ∈ config.motionChecks, check.holds = true) ∧
      (∀ motor ∈ config.motors.zipIdx, ∀ check ∈ config.motorChecks nearest motor, check.holds = true) ∧
      (∀ check ∈ claimChecks [] (config.boardClaims bySpecimens), check.holds = true) ∧
      ∀ check ∈ claimChecks (config.boardClaims bySpecimens) config.ledClaims, check.holds = true := by
  unfold Accepted checks at h
  simp only [List.forall_mem_append, List.forall_mem_flatMap] at h
  obtain ⟨⟨⟨⟨⟨⟨hpower, hsensor⟩, hmotion⟩, hmotors⟩, hboard⟩, -⟩, hleds⟩ := h
  exact ⟨hpower, hsensor, hmotion, hmotors, hboard, hleds⟩

/-- No line of a chip is used twice. -/
theorem Accepted.linesApart (h : config.Accepted nearest bySpecimens) : config.gpioLines.Nodup := by
  obtain ⟨-, -, -, -, hboard, hleds⟩ := h.rows
  have hfirst := @nodup_of_claimChecks [] _ List.nodup_nil hboard
  rw [← config.map_key_claims bySpecimens]
  exact nodup_of_claimChecks hfirst hleds

/-- The channels of the card, each in range and none twice, as the loop over them checks it. -/
theorem Accepted.channels (h : ∀ check ∈ config.sensorChecks, check.holds = true) :
    (∀ channel ∈ config.sensors.sequentRtdChannels, 1 ≤ channel ∧ channel ≤ 8) ∧
      config.sensors.sequentRtdChannels.Nodup := by
  unfold sensorChecks at h
  simp only [List.forall_mem_append, List.forall_mem_flatMap] at h
  obtain ⟨⟨-, hloop⟩, -⟩ := h
  have hplace : ∀ place channel, config.sensors.sequentRtdChannels[place]? = some channel →
      (1 ≤ channel ∧ channel ≤ 8) ∧ channel ∉ config.sensors.sequentRtdChannels.take place := by
    intro place channel hchannel
    have hboth := hloop (channel, place) (List.mk_mem_zipIdx_iff_getElem?.mpr hchannel)
    simp only [List.forall_mem_cons, decide_eq_true_eq, Bool.not_eq_true', List.any_eq_false] at hboth
    exact ⟨hboth.1, fun hin => hboth.2.1 channel hin rfl⟩
  constructor
  · intro channel hchannel
    obtain ⟨place, hat⟩ := List.mem_iff_getElem?.mp hchannel
    exact (hplace place channel hat).1
  · refine List.nodup_iff_getElem?_ne_getElem?.mpr fun first second hless hlong heq => ?_
    obtain ⟨channel, hchannel⟩ : ∃ channel, config.sensors.sequentRtdChannels[second]? = some channel :=
      ⟨_, List.getElem?_eq_getElem hlong⟩
    refine (hplace second channel hchannel).2 (List.mem_iff_getElem?.mpr ⟨first, ?_⟩)
    rw [List.getElem?_take_of_lt hless, heq, hchannel]

/-- An accepted configuration has a layout that passes the checks of the layout. -/
theorem Accepted.layout (h : config.Accepted nearest bySpecimens) : config.layout.Accepted := by
  have hlines := h.linesApart
  obtain ⟨hpower, hsensor, -, hmotors, -, -⟩ := h.rows
  obtain ⟨honCard, hchannelsApart⟩ := Accepted.channels hsensor
  have hmotor : ∀ motor ∈ config.motors, motor.samples ≠ [] ∧
      ∀ sample ∈ motor.samples, sample < config.hardware.sampleCount := by
    intro motor hmotor
    obtain ⟨place, hplace⟩ := List.mem_iff_getElem?.mp hmotor
    have hall := hmotors (motor, place) (List.mk_mem_zipIdx_iff_getElem?.mpr hplace)
    simp only [motorChecks, List.forall_mem_cons, decide_eq_true_eq, List.all_eq_true] at hall
    obtain ⟨-, -, ⟨-, -, -, -, -, -, -, -, -, hne⟩, -, -, -, -, -, -, -, hrange, -⟩ := hall
    exact ⟨hne, hrange⟩
  have hsamples : ∀ samples ∈ config.motors.map MotorConfig.samples, samples ≠ [] ∧
      ∀ sample ∈ samples, sample < config.hardware.sampleCount := by
    intro samples hsamples
    obtain ⟨motor, hin, rfl⟩ := List.mem_map.mp hsamples
    exact hmotor motor hin
  simp only [powerChecks, List.forall_mem_cons, decide_eq_true_eq, List.all_eq_true] at hpower
  obtain ⟨-, -, -, -, hheaterCount, hsampleCount, hheaters, houtput, -, -, -, -, htemperature, hheated, -, -, -⟩ :=
    hpower
  simp only [sensorChecks, List.forall_mem_append, List.forall_mem_cons, decide_eq_true_eq,
    List.all_eq_true] at hsensor
  obtain ⟨⟨⟨-, -, -, -, -, -, -, -, hchannels, -⟩, -⟩, -, -, -, -, hclicks, hclicksApart, hclicked, -, -, -⟩ := hsensor
  refine ⟨Nat.pos_of_ne_zero hheaterCount, Nat.pos_of_ne_zero hsampleCount, hheaters, houtput, htemperature, hheated,
    hchannels, honCard, hchannelsApart, hclicks, ?_, hclicked, fun samples hin => (hsamples samples hin).1,
    fun samples hin => (hsamples samples hin).2, ?_⟩
  · obtain ⟨first, second, hpair⟩ := List.length_eq_two.mp hclicks
    change config.sensors.max31865SampleIndices.Nodup
    rw [hpair] at hclicksApart ⊢
    simpa using hclicksApart
  · have hboard : (reservedGpioLines.map (fun line => (config.runtime.gpioChip, line)) ++
        config.heaters.outputLines.map (fun line => (config.runtime.gpioChip, line))).Nodup := by
      unfold gpioLines at hlines
      exact hlines.of_append_left.of_append_left.of_append_left
    rw [← List.map_append] at hboard
    exact hboard.of_map _

end OnboardConfig

end Coatheal.Config
