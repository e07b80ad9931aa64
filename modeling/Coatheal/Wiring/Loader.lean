import Coatheal.Library.Literal
import Coatheal.Wiring.Layout

/-!
# The layout in a configuration file

A file describes the wiring by the specimens of the two motors, or, as files did before, by the maps
themselves, with defaults for those it leaves out. The loader reads either, derives the maps from specimens
and checks them. Only what decides the maps is modelled: a file is its values by key, and the checks of the
other keys and the messages are left out.
-/

namespace Coatheal.Wiring

open Library
open Library.Text (trim getlines)

/-- The values of a configuration file by key. -/
abbrev Values := String → Option (List Char)

/-- The keys that specimens replace. -/
def layoutKeys : List String :=
  ["heater.output_lines", "heater.temperature_channels", "sensor.sequent_rtd_channels",
    "sensor.max31865_sample_indices", "motor0.samples", "motor1.samples"]

/-- The keys of the specimens. -/
def specimenKeys : List String := ["motor0.specimens", "motor1.specimens"]

/-- A file sets one of the keys. -/
def Values.sets (values : Values) (keys : List String) : Bool := keys.any fun key => (values key).isSome

/-- `ParseNumber` of a size. -/
def parseNumber (value : List Char) : Option ℕ := Literal.streamSize (trim Text.isSpace value)

/-- `ParseSizeList`. -/
def parseSizeList (value : List Char) : Option (List ℕ) :=
  (getlines ',' value).mapM fun item =>
    let trimmed := trim Text.isSpace item
    if trimmed = [] then none else parseNumber trimmed

/-- What the maps of a configuration hang on. -/
structure LayoutConfig where
  sampleCount : ℕ
  heaterCount : ℕ
  maps : LayoutMaps
deriving DecidableEq

/-- A key's value as read, or the default. -/
def Values.readOr {α : Type} (values : Values) (key : String) (read : List Char → Option α) (default : α) : Option α :=
  match values key with
  | none => some default
  | some value => read value

/-- The configuration as the loader has it before its checks. -/
def readLayout (values : Values) : Option LayoutConfig := do
  let sampleCount ← values.readOr "hardware.sample_count" parseNumber 8
  let heaterCount ← values.readOr "hardware.heater_count" parseNumber 6
  let outputLines ← values.readOr "heater.output_lines" parseSizeList [19, 13, 6, 5, 24, 23]
  let temperatureChannels ← values.readOr "heater.temperature_channels" parseSizeList [0, 1, 2, 3, 4, 5]
  let sequentRtdChannels ← values.readOr "sensor.sequent_rtd_channels" parseSizeList [1, 2, 3, 4, 5, 6, 7, 8]
  let max31865SampleIndices ← values.readOr "sensor.max31865_sample_indices" parseSizeList [0, 4]
  let samples0 ← values.readOr "motor0.samples" parseSizeList [0, 1, 2, 3]
  let samples1 ← values.readOr "motor1.samples" parseSizeList [4, 5, 6, 7]
  let specimens0 ← values.readOr "motor0.specimens" parseSpecimenList []
  let specimens1 ← values.readOr "motor1.specimens" parseSpecimenList []
  if values.sets specimenKeys then
    if specimenKeys.any fun key => (values key).isNone then none
    else if values.sets layoutKeys then none
    else do
      let maps ← (deriveLayoutFromSpecimens [specimens0, specimens1] sampleCount heaterCount).toOption
      return ⟨sampleCount, heaterCount, maps⟩
  else return ⟨sampleCount, heaterCount,
    ⟨sequentRtdChannels, max31865SampleIndices, outputLines, temperatureChannels, [samples0, samples1]⟩⟩

/-- `kReservedGpioLines`. -/
def reservedGpioLines : List ℕ := [14, 15, 17, 26, 7, 8]

/-- The checks of the loader that the maps have to pass. -/
structure LayoutConfig.Accepted (config : LayoutConfig) : Prop where
  heaterCount : 0 < config.heaterCount
  sampleCount : 0 < config.sampleCount
  heaters : config.heaterCount ≤ config.sampleCount
  outputLines : config.maps.outputLines = [] ∨ config.maps.outputLines.length = config.heaterCount
  temperatureChannels : config.maps.temperatureChannels.length = config.heaterCount
  heated : ∀ sample ∈ config.maps.temperatureChannels, sample < config.sampleCount
  channels : config.maps.sequentRtdChannels.length = config.sampleCount
  onCard : ∀ channel ∈ config.maps.sequentRtdChannels, 1 ≤ channel ∧ channel ≤ 8
  channelsApart : config.maps.sequentRtdChannels.Nodup
  clicks : config.maps.max31865SampleIndices.length = 2
  clicksApart : config.maps.max31865SampleIndices.Nodup
  clicked : ∀ sample ∈ config.maps.max31865SampleIndices, sample < config.sampleCount
  motors : ∀ samples ∈ config.maps.motorSamples, samples ≠ []
  pulled : ∀ samples ∈ config.maps.motorSamples, ∀ sample ∈ samples, sample < config.sampleCount
  gpio : (reservedGpioLines ++ config.maps.outputLines).Nodup

/-- Whether the maps pass can be computed. -/
instance (config : LayoutConfig) : Decidable config.Accepted :=
  decidable_of_iff
    (0 < config.heaterCount ∧ 0 < config.sampleCount ∧ config.heaterCount ≤ config.sampleCount ∧
      (config.maps.outputLines = [] ∨ config.maps.outputLines.length = config.heaterCount) ∧
      config.maps.temperatureChannels.length = config.heaterCount ∧
      (∀ sample ∈ config.maps.temperatureChannels, sample < config.sampleCount) ∧
      config.maps.sequentRtdChannels.length = config.sampleCount ∧
      (∀ channel ∈ config.maps.sequentRtdChannels, 1 ≤ channel ∧ channel ≤ 8) ∧
      config.maps.sequentRtdChannels.Nodup ∧ config.maps.max31865SampleIndices.length = 2 ∧
      config.maps.max31865SampleIndices.Nodup ∧
      (∀ sample ∈ config.maps.max31865SampleIndices, sample < config.sampleCount) ∧
      (∀ samples ∈ config.maps.motorSamples, samples ≠ []) ∧
      (∀ samples ∈ config.maps.motorSamples, ∀ sample ∈ samples, sample < config.sampleCount) ∧
      (reservedGpioLines ++ config.maps.outputLines).Nodup)
    ⟨fun ⟨h1, h2, h3, h4, h5, h6, h7, h8, h9, h10, h11, h12, h13, h14, h15⟩ =>
      ⟨h1, h2, h3, h4, h5, h6, h7, h8, h9, h10, h11, h12, h13, h14, h15⟩,
    fun h => ⟨h.heaterCount, h.sampleCount, h.heaters, h.outputLines, h.temperatureChannels, h.heated, h.channels,
      h.onCard, h.channelsApart, h.clicks, h.clicksApart, h.clicked, h.motors, h.pulled, h.gpio⟩⟩

/-- `LoadConfigFromIni`, of the layout. -/
def loadLayout (values : Values) : Option LayoutConfig := do
  let config ← readLayout values
  if config.Accepted then return config else none

/-- What is loaded was read and passed. -/
theorem loadLayout_eq_some {values : Values} {config : LayoutConfig} :
    loadLayout values = some config ↔ readLayout values = some config ∧ config.Accepted := by
  unfold loadLayout
  constructor
  · intro h
    obtain ⟨read, hread, h⟩ := Option.bind_eq_some_iff.mp h
    split at h
    case isTrue haccepted =>
      obtain rfl := Option.some.inj h
      exact ⟨hread, haccepted⟩
    case isFalse => cases h
  · rintro ⟨hread, haccepted⟩
    rw [hread]
    exact if_pos haccepted

/-- The maps of a file without specimens are its values and the defaults. -/
theorem readLayout_legacy {values : Values} {config : LayoutConfig} (h : readLayout values = some config)
    (hlegacy : values.sets specimenKeys = false) :
    values.readOr "hardware.sample_count" parseNumber 8 = some config.sampleCount ∧
      values.readOr "hardware.heater_count" parseNumber 6 = some config.heaterCount ∧
      values.readOr "heater.output_lines" parseSizeList [19, 13, 6, 5, 24, 23] = some config.maps.outputLines ∧
      values.readOr "heater.temperature_channels" parseSizeList [0, 1, 2, 3, 4, 5] =
        some config.maps.temperatureChannels ∧
      values.readOr "sensor.sequent_rtd_channels" parseSizeList [1, 2, 3, 4, 5, 6, 7, 8] =
        some config.maps.sequentRtdChannels ∧
      values.readOr "sensor.max31865_sample_indices" parseSizeList [0, 4] =
        some config.maps.max31865SampleIndices ∧
      ∃ samples0 samples1, values.readOr "motor0.samples" parseSizeList [0, 1, 2, 3] = some samples0 ∧
        values.readOr "motor1.samples" parseSizeList [4, 5, 6, 7] = some samples1 ∧
        config.maps.motorSamples = [samples0, samples1] := by
  unfold readLayout at h
  obtain ⟨sampleCount, h1, h⟩ := Option.bind_eq_some_iff.mp h
  obtain ⟨heaterCount, h2, h⟩ := Option.bind_eq_some_iff.mp h
  obtain ⟨outputLines, h3, h⟩ := Option.bind_eq_some_iff.mp h
  obtain ⟨temperatureChannels, h4, h⟩ := Option.bind_eq_some_iff.mp h
  obtain ⟨channels, h5, h⟩ := Option.bind_eq_some_iff.mp h
  obtain ⟨clicks, h6, h⟩ := Option.bind_eq_some_iff.mp h
  obtain ⟨samples0, h7, h⟩ := Option.bind_eq_some_iff.mp h
  obtain ⟨samples1, h8, h⟩ := Option.bind_eq_some_iff.mp h
  obtain ⟨specimens0, -, h⟩ := Option.bind_eq_some_iff.mp h
  obtain ⟨specimens1, -, h⟩ := Option.bind_eq_some_iff.mp h
  rw [hlegacy, if_neg Bool.false_ne_true] at h
  obtain rfl := Option.some.inj h
  exact ⟨h1, h2, h3, h4, h5, h6, samples0, samples1, h7, h8, rfl⟩

/-- The maps of a file with specimens are derived from proper ones. -/
theorem readLayout_specimens {values : Values} {config : LayoutConfig} (h : readLayout values = some config)
    (hset : values.sets specimenKeys = true) : ∃ first second one two,
      parseSpecimenList first = some one ∧ parseSpecimenList second = some two ∧
        Proper [one, two] config.sampleCount config.heaterCount ∧ config.maps = fillMaps [one, two] := by
  unfold readLayout at h
  obtain ⟨sampleCount, -, h⟩ := Option.bind_eq_some_iff.mp h
  obtain ⟨heaterCount, -, h⟩ := Option.bind_eq_some_iff.mp h
  obtain ⟨outputLines, -, h⟩ := Option.bind_eq_some_iff.mp h
  obtain ⟨temperatureChannels, -, h⟩ := Option.bind_eq_some_iff.mp h
  obtain ⟨channels, -, h⟩ := Option.bind_eq_some_iff.mp h
  obtain ⟨clicks, -, h⟩ := Option.bind_eq_some_iff.mp h
  obtain ⟨samples0, -, h⟩ := Option.bind_eq_some_iff.mp h
  obtain ⟨samples1, -, h⟩ := Option.bind_eq_some_iff.mp h
  obtain ⟨one, hone, h⟩ := Option.bind_eq_some_iff.mp h
  obtain ⟨two, htwo, h⟩ := Option.bind_eq_some_iff.mp h
  rw [hset, if_pos rfl] at h
  split at h
  case isTrue => cases h
  case isFalse hboth =>
    split at h
    case isTrue => cases h
    case isFalse =>
      obtain ⟨maps, hmaps, h⟩ := Option.bind_eq_some_iff.mp h
      obtain rfl := Option.some.inj h
      have hread {key : String} {specimens : List SpecimenConfig} (hkey : key ∈ specimenKeys)
          (hspecimens : values.readOr key parseSpecimenList [] = some specimens) :
          ∃ text, parseSpecimenList text = some specimens := by
        unfold Values.readOr at hspecimens
        cases hvalue : values key with
        | none => exact absurd (List.any_eq_true.mpr ⟨key, hkey, by rw [hvalue]; rfl⟩) hboth
        | some text =>
          rw [hvalue] at hspecimens
          exact ⟨text, hspecimens⟩
      obtain ⟨first, hfirst⟩ := hread (by decide) hone
      obtain ⟨second, hsecond⟩ := hread (by decide) htwo
      cases hderive : deriveLayoutFromSpecimens [one, two] sampleCount heaterCount with
      | error message =>
        rw [hderive] at hmaps
        cases hmaps
      | ok derived =>
        rw [hderive] at hmaps
        obtain ⟨hproper, rfl⟩ := deriveLayoutFromSpecimens_eq_ok.mp hderive
        exact ⟨first, second, one, two, hfirst, hsecond, hproper, (Option.some.inj hmaps).symm⟩

end Coatheal.Wiring
