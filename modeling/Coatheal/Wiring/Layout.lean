import Coatheal.Wiring.Plain
import Mathlib.Data.List.Dedup
import Mathlib.Data.List.Sort

/-!
# From specimens to the maps

The onboard runs on maps by index: the samples of each motor, the terminal of each sample, the sample and the
line of each heater, the sample of each click. It derives them from the two motors' specimens, after checks;
the setup script derives and checks the same. The two accept the same texts but for texts that only the
script can read.
-/

namespace Coatheal.Wiring

open Library

/-- What is counted and collected while the specimens are checked. -/
structure Tally where
  specimenCount : ℕ
  heatedCount : ℕ
  terminals : List ℕ
  lines : List ℕ

/-- The checks of one specimen, in `DeriveLayoutFromSpecimens`. -/
def tallySpecimen (key : String) (tally : Tally) (specimen : SpecimenConfig) : Except String Tally :=
  if specimen.rtdChannel < 1 ∨ specimen.rtdChannel > 8 then
    .error s!"{key}: ch{specimen.rtdChannel} is not a card terminal (ch1..ch8)"
  else if specimen.rtdChannel ∈ tally.terminals then
    .error s!"ch{specimen.rtdChannel} is listed twice in motor0.specimens / motor1.specimens"
  else
    let counted := { tally with
      specimenCount := tally.specimenCount + 1, terminals := specimen.rtdChannel :: tally.terminals }
    match specimen.heaterLine with
    | none => .ok counted
    | some line =>
      if line ∈ tally.lines then
        .error s!"BCM {line} heats two specimens in motor0.specimens / motor1.specimens"
      else .ok { counted with heatedCount := tally.heatedCount + 1, lines := line :: tally.lines }

/-- The checks of one motor. -/
def tallyMotor (tally : Tally) (motor : List SpecimenConfig × ℕ) : Except String Tally :=
  let key := s!"motor{motor.2}.specimens"
  if motor.1 = [] then .error s!"{key} lists no specimen" else motor.1.foldlM (tallySpecimen key) tally

/-- The maps the onboard runs on. -/
structure LayoutMaps where
  sequentRtdChannels : List ℕ
  max31865SampleIndices : List ℕ
  outputLines : List ℕ
  temperatureChannels : List ℕ
  motorSamples : List (List ℕ)
deriving DecidableEq

/-- The maps while they are filled, with the next sample and the samples of the motor at hand. -/
structure Filling extends LayoutMaps where
  sample : ℕ
  samples : List ℕ

/-- A specimen is entered in the maps. -/
def Filling.specimen (f : Filling) (specimen : SpecimenConfig) : Filling :=
  let placed := { f with
    samples := f.samples ++ [f.sample], sequentRtdChannels := f.sequentRtdChannels ++ [specimen.rtdChannel],
    sample := f.sample + 1 }
  match specimen.heaterLine with
  | none => placed
  | some line => { placed with
    outputLines := f.outputLines ++ [line], temperatureChannels := f.temperatureChannels ++ [f.sample] }

/-- A motor is entered in the maps; its first specimen carries its click. -/
def Filling.motor (f : Filling) (specimens : List SpecimenConfig) : Filling :=
  let filled := specimens.foldl Filling.specimen
    { f with max31865SampleIndices := f.max31865SampleIndices ++ [f.sample], samples := [] }
  { filled with motorSamples := filled.motorSamples ++ [filled.samples] }

/-- The maps of the motors' specimens. -/
def fillMaps (motors : List (List SpecimenConfig)) : LayoutMaps :=
  (motors.foldl Filling.motor ⟨⟨[], [], [], [], []⟩, 0, []⟩).toLayoutMaps

/-- `DeriveLayoutFromSpecimens`. -/
def deriveLayoutFromSpecimens (motors : List (List SpecimenConfig)) (sampleCount heaterCount : ℕ) :
    Except String LayoutMaps := do
  let tally ← motors.zipIdx.foldlM tallyMotor ⟨0, 0, [], []⟩
  if tally.specimenCount ≠ sampleCount then
    .error s!"motor0.specimens and motor1.specimens list {tally.specimenCount} specimens; hardware.sample_count is {
      sampleCount}"
  else if tally.heatedCount ≠ heaterCount then
    .error s!"motor0.specimens and motor1.specimens list {tally.heatedCount
      } heated specimens; hardware.heater_count is {heaterCount}"
  else return fillMaps motors

/-- The script's layout: each motor's specimens in sample order. -/
structure Layout where
  motors : List (List Specimen)
deriving DecidableEq

namespace Layout

/-- All specimens in sample order. -/
def specimens (layout : Layout) : List Specimen := layout.motors.flatten

/-- The terminal of each sample. -/
def channels (layout : Layout) : List ℤ := layout.specimens.map Specimen.channel

/-- The line of each heater. -/
def heaterLines (layout : Layout) : List ℤ := layout.specimens.filterMap Specimen.line

/-- The sample of each heater. -/
def heaterSamples (layout : Layout) : List ℕ :=
  (layout.specimens.zipIdx.filter fun numbered => numbered.1.line.isSome).map Prod.snd

/-- The samples of each motor. -/
def motorSamples (layout : Layout) : List (List ℕ) :=
  (layout.motors.foldl (fun (groups : List (List ℕ) × ℕ) group =>
    (groups.1 ++ [List.range' groups.2 group.length], groups.2 + group.length)) ([], 0)).1

/-- The sample of each click. -/
def clicks (layout : Layout) : List ℕ := layout.motorSamples.filterMap List.head?

end Layout

/-- What is more than once in a list, in order. -/
def repeated (values : List ℤ) : List ℤ :=
  (values.filter fun value => 1 < values.count value).dedup.mergeSort (· ≤ ·)

/-- `layout_errors`. -/
def layoutErrors (layout : Layout) (sampleCount heaterCount : ℕ) : List String :=
  (layout.motors.zipIdx.filterMap fun motor =>
    if motor.1 = [] then some s!"motor{motor.2}.specimens lists no specimen" else none) ++
  (layout.motors.zipIdx.flatMap fun motor => motor.1.filterMap fun specimen =>
    if ¬ (1 ≤ specimen.channel ∧ specimen.channel ≤ 8) then
      some s!"motor{motor.2}.specimens: ch{specimen.channel} is not a card terminal (ch1..ch8)"
    else none) ++
  (repeated layout.channels).map (fun channel =>
    s!"ch{channel} is listed twice in motor0.specimens / motor1.specimens") ++
  (repeated layout.heaterLines).map (fun line =>
    s!"BCM {line} heats two specimens in motor0.specimens / motor1.specimens") ++
  (if layout.channels.length ≠ sampleCount then
    [s!"motor0.specimens and motor1.specimens list {layout.channels.length
      } specimens; hardware.sample_count is {sampleCount}"]
  else []) ++
  if layout.heaterLines.length ≠ heaterCount then
    [s!"motor0.specimens and motor1.specimens list {layout.heaterLines.length
      } heated specimens; hardware.heater_count is {heaterCount}"]
  else []

/-- The maps the onboard makes of the motors' texts, if it accepts them. -/
def onboardLayout (texts : List (List Char)) (sampleCount heaterCount : ℕ) : Option LayoutMaps := do
  let motors ← texts.mapM parseSpecimenList
  (deriveLayoutFromSpecimens motors sampleCount heaterCount).toOption

/-- The layout the script makes of the motors' texts, if it accepts them. -/
def scriptLayout (texts : List (List Char)) (sampleCount heaterCount : ℕ) : Option Layout :=
  match texts.mapM parseSpecimens with
  | .error _ => none
  | .ok motors => if layoutErrors ⟨motors⟩ sampleCount heaterCount = [] then some ⟨motors⟩ else none

/-- The terminals of specimens. -/
def terminalsOf (specimens : List SpecimenConfig) : List ℕ := specimens.map SpecimenConfig.rtdChannel

/-- The lines of the heated ones among specimens. -/
def linesOf (specimens : List SpecimenConfig) : List ℕ := specimens.filterMap SpecimenConfig.heaterLine

/-- What the specimens of the motors have to be: some on each motor, on the card's terminals, no terminal and no
line twice, and as many as the configuration counts. -/
structure Proper (motors : List (List SpecimenConfig)) (sampleCount heaterCount : ℕ) : Prop where
  listed : ∀ group ∈ motors, group ≠ []
  onCard : ∀ specimen ∈ motors.flatten, 1 ≤ specimen.rtdChannel ∧ specimen.rtdChannel ≤ 8
  terminals : (terminalsOf motors.flatten).Nodup
  lines : (linesOf motors.flatten).Nodup
  samples : motors.flatten.length = sampleCount
  heaters : (linesOf motors.flatten).length = heaterCount

namespace Tally

/-- The tally after more specimens. -/
def add (tally : Tally) (specimens : List SpecimenConfig) : Tally where
  specimenCount := tally.specimenCount + specimens.length
  heatedCount := tally.heatedCount + (linesOf specimens).length
  terminals := (terminalsOf specimens).reverse ++ tally.terminals
  lines := (linesOf specimens).reverse ++ tally.lines

/-- No terminal and no line is there twice. -/
structure Apart (tally : Tally) : Prop where
  terminals : tally.terminals.Nodup
  lines : tally.lines.Nodup

/-- Adding specimens after others. -/
theorem add_append (tally : Tally) (first second : List SpecimenConfig) :
    tally.add (first ++ second) = (tally.add first).add second := by
  simp [add, terminalsOf, linesOf, Nat.add_assoc]

/-- What is apart after more specimens was apart before. -/
theorem Apart.of_add {tally : Tally} {specimens : List SpecimenConfig} (h : (tally.add specimens).Apart) :
    tally.Apart :=
  ⟨(List.nodup_append.mp h.terminals).2.1, (List.nodup_append.mp h.lines).2.1⟩

/-- A specimen passes its checks exactly when it is on the card and shares nothing with those before it. -/
theorem tallySpecimen_eq_ok {key : String} {tally after : Tally} {specimen : SpecimenConfig} (h : tally.Apart) :
    tallySpecimen key tally specimen = .ok after ↔
      (1 ≤ specimen.rtdChannel ∧ specimen.rtdChannel ≤ 8) ∧ (tally.add [specimen]).Apart ∧
        after = tally.add [specimen] := by
  obtain ⟨channel, line⟩ := specimen
  have hterminals : (tally.add [⟨channel, line⟩]).terminals = channel :: tally.terminals := rfl
  unfold tallySpecimen
  dsimp only
  by_cases hcard : channel < 1 ∨ channel > 8
  · rw [if_pos hcard]
    refine ⟨fun hok => (nomatch hok), fun hok => ?_⟩
    have hrange := hok.1
    omega
  have hrange : 1 ≤ channel ∧ channel ≤ 8 := by omega
  rw [if_neg hcard]
  by_cases htwice : channel ∈ tally.terminals
  · rw [if_pos htwice]
    refine ⟨fun hok => (nomatch hok), fun hok => ?_⟩
    exact absurd htwice (List.nodup_cons.mp hok.2.1.terminals).1
  rw [if_neg htwice]
  have hfresh : (channel :: tally.terminals).Nodup := List.nodup_cons.mpr ⟨htwice, h.terminals⟩
  cases line with
  | none => exact ⟨fun hok => ⟨hrange, ⟨hfresh, h.lines⟩, (Except.ok.inj hok).symm⟩, fun hok => hok.2.2 ▸ rfl⟩
  | some line =>
    dsimp only
    by_cases hheated : line ∈ tally.lines
    · rw [if_pos hheated]
      refine ⟨fun hok => (nomatch hok), fun hok => ?_⟩
      exact absurd hheated (List.nodup_cons.mp hok.2.1.lines).1
    · rw [if_neg hheated]
      have hlines : (line :: tally.lines).Nodup := List.nodup_cons.mpr ⟨hheated, h.lines⟩
      exact ⟨fun hok => ⟨hrange, ⟨hfresh, hlines⟩, (Except.ok.inj hok).symm⟩, fun hok => hok.2.2 ▸ rfl⟩

/-- Specimens pass their checks one after the other exactly when all are on the card and apart. -/
theorem tallySpecimens_eq_ok {key : String} {tally after : Tally} {specimens : List SpecimenConfig} (h : tally.Apart) :
    specimens.foldlM (tallySpecimen key) tally = .ok after ↔
      (∀ specimen ∈ specimens, 1 ≤ specimen.rtdChannel ∧ specimen.rtdChannel ≤ 8) ∧ (tally.add specimens).Apart ∧
        after = tally.add specimens := by
  induction specimens generalizing tally with
  | nil =>
    refine ⟨fun hok => ⟨by simp, h, (Except.ok.inj hok).symm⟩, fun hok => ?_⟩
    rw [hok.2.2]
    rfl
  | cons specimen rest ih =>
    have hadd : tally.add (specimen :: rest) = (tally.add [specimen]).add rest := add_append tally [specimen] rest
    rw [List.foldlM_cons, List.forall_mem_cons, hadd]
    constructor
    · intro hok
      cases hfirst : tallySpecimen key tally specimen with
      | error message =>
        rw [hfirst] at hok
        cases hok
      | ok next =>
        rw [hfirst] at hok
        obtain ⟨hrange, hapart, rfl⟩ := (tallySpecimen_eq_ok h).mp hfirst
        obtain ⟨hranges, hall⟩ := (ih hapart).mp hok
        exact ⟨⟨hrange, hranges⟩, hall⟩
    · rintro ⟨⟨hrange, hranges⟩, hapart, hafter⟩
      rw [(tallySpecimen_eq_ok h).mpr ⟨hrange, hapart.of_add, rfl⟩]
      exact (ih hapart.of_add).mpr ⟨hranges, hapart, hafter⟩

/-- Motors pass their checks exactly when each lists specimens, all on the card and apart. -/
theorem tallyMotors_eq_ok {tally after : Tally} {motors : List (List SpecimenConfig)} {start : ℕ} (h : tally.Apart) :
    (motors.zipIdx start).foldlM tallyMotor tally = .ok after ↔
      (∀ group ∈ motors, group ≠ []) ∧
        (∀ specimen ∈ motors.flatten, 1 ≤ specimen.rtdChannel ∧ specimen.rtdChannel ≤ 8) ∧
        (tally.add motors.flatten).Apart ∧ after = tally.add motors.flatten := by
  induction motors generalizing tally start with
  | nil =>
    refine ⟨fun hok => ⟨by simp, by simp, h, (Except.ok.inj hok).symm⟩, fun hok => ?_⟩
    rw [hok.2.2.2]
    rfl
  | cons group motors ih =>
    rw [List.zipIdx_cons, List.foldlM_cons, List.forall_mem_cons, List.flatten_cons, add_append,
      List.forall_mem_append]
    by_cases hgroup : group = []
    · refine ⟨fun hok => ?_, fun hok => absurd hgroup hok.1.1⟩
      unfold tallyMotor at hok
      rw [if_pos hgroup] at hok
      cases hok
    have hmotor : tallyMotor tally (group, start) =
      group.foldlM (tallySpecimen s!"motor{start}.specimens") tally := if_neg hgroup
    rw [hmotor]
    constructor
    · intro hok
      cases hfirst : group.foldlM (tallySpecimen s!"motor{start}.specimens") tally with
      | error message =>
        rw [hfirst] at hok
        cases hok
      | ok next =>
        rw [hfirst] at hok
        obtain ⟨hrange, hapart, rfl⟩ := (tallySpecimens_eq_ok h).mp hfirst
        obtain ⟨hlisted, hranges, hall⟩ := (ih hapart).mp hok
        exact ⟨⟨hgroup, hlisted⟩, ⟨hrange, hranges⟩, hall⟩
    · rintro ⟨⟨-, hlisted⟩, ⟨hrange, hranges⟩, hapart, hafter⟩
      rw [(tallySpecimens_eq_ok h).mpr ⟨hrange, hapart.of_add, rfl⟩]
      exact (ih hapart.of_add).mpr ⟨hlisted, hranges, hapart, hafter⟩

end Tally

/-- The onboard derives the maps exactly from proper specimens. -/
theorem deriveLayoutFromSpecimens_eq_ok {motors : List (List SpecimenConfig)} {sampleCount heaterCount : ℕ}
    {maps : LayoutMaps} : deriveLayoutFromSpecimens motors sampleCount heaterCount = .ok maps ↔
      Proper motors sampleCount heaterCount ∧ maps = fillMaps motors := by
  have hstart : Tally.Apart ⟨0, 0, [], []⟩ := ⟨List.nodup_nil, List.nodup_nil⟩
  have happart : (Tally.add ⟨0, 0, [], []⟩ motors.flatten).Apart ↔
      (terminalsOf motors.flatten).Nodup ∧ (linesOf motors.flatten).Nodup := by
    refine ⟨fun h => ?_, fun h => ⟨?_, ?_⟩⟩
    · have hterminals := h.terminals
      have hlines := h.lines
      simp only [Tally.add, List.append_nil, List.nodup_reverse] at hterminals hlines
      exact ⟨hterminals, hlines⟩
    · simpa only [Tally.add, List.append_nil, List.nodup_reverse] using h.1
    · simpa only [Tally.add, List.append_nil, List.nodup_reverse] using h.2
  unfold deriveLayoutFromSpecimens
  constructor
  · intro hok
    cases htally : motors.zipIdx.foldlM tallyMotor ⟨0, 0, [], []⟩ with
    | error message =>
      rw [htally] at hok
      cases hok
    | ok tally =>
      rw [htally] at hok
      obtain ⟨hlisted, hcard, hapart, rfl⟩ := (Tally.tallyMotors_eq_ok hstart).mp htally
      change (if _ then _ else _) = _ at hok
      split at hok
      · cases hok
      split at hok
      · cases hok
      case isFalse.isFalse hsamples hheaters =>
        obtain ⟨hterminals, hlines⟩ := happart.mp hapart
        refine ⟨⟨hlisted, hcard, hterminals, hlines, ?_, ?_⟩, (Except.ok.inj hok).symm⟩
        · simpa only [Tally.add, Nat.zero_add, not_not] using hsamples
        · simpa only [Tally.add, Nat.zero_add, not_not] using hheaters
  · rintro ⟨h, rfl⟩
    rw [(Tally.tallyMotors_eq_ok hstart).mpr ⟨h.listed, h.onCard, happart.mpr ⟨h.terminals, h.lines⟩, rfl⟩]
    change (if _ then _ else if _ then _ else _) = _
    rw [if_neg, if_neg]
    · rfl
    · simpa only [Tally.add, Nat.zero_add, not_not] using h.heaters
    · simpa only [Tally.add, Nat.zero_add, not_not] using h.samples

/-- What holds of each element numbered holds of each element. -/
theorem forall_zipIdx {α : Type*} (p : α → Prop) {values : List α} :
    (∀ numbered ∈ values.zipIdx, p numbered.1) ↔ ∀ value ∈ values, p value := by
  conv_rhs => rw [← List.zipIdx_map_fst 0 values]
  exact List.forall_mem_map.symm

/-- Nothing is repeated exactly in a list without duplicates. -/
theorem repeated_eq_nil {values : List ℤ} : repeated values = [] ↔ values.Nodup := by
  have hfilter : values.filter (fun value => 1 < values.count value) = [] ↔ values.Nodup := by
    rw [List.filter_eq_nil_iff, List.nodup_iff_count_le_one]
    refine ⟨fun h value => ?_, fun h value _ => by simpa using h value⟩
    by_cases hmem : value ∈ values
    · simpa using h value hmem
    · rw [List.count_eq_zero_of_not_mem hmem]
      exact Nat.zero_le 1
  rw [← hfilter]
  unfold repeated
  refine ⟨fun h => ?_, fun h => by simp [h]⟩
  have hlength := congrArg List.length h
  rw [List.length_mergeSort, List.length_nil, List.length_eq_zero_iff] at hlength
  exact List.dedup_eq_nil _ |>.mp hlength

/-- The script's layout of the onboard's specimens. -/
def toLayout (motors : List (List SpecimenConfig)) : Layout := ⟨motors.map (List.map SpecimenConfig.toSpecimen)⟩

/-- The script's specimens of a layout. -/
theorem toLayout_specimens (motors : List (List SpecimenConfig)) :
    (toLayout motors).specimens = motors.flatten.map SpecimenConfig.toSpecimen := List.map_flatten.symm

/-- The script's terminals are the onboard's. -/
theorem toLayout_channels (motors : List (List SpecimenConfig)) :
    (toLayout motors).channels = (terminalsOf motors.flatten).map (Nat.cast : ℕ → ℤ) := by
  unfold Layout.channels terminalsOf
  rw [toLayout_specimens, List.map_map, List.map_map]
  rfl

/-- The script's lines are the onboard's. -/
theorem toLayout_heaterLines (motors : List (List SpecimenConfig)) :
    (toLayout motors).heaterLines = (linesOf motors.flatten).map (Nat.cast : ℕ → ℤ) := by
  unfold Layout.heaterLines linesOf
  rw [toLayout_specimens, List.filterMap_map, List.map_filterMap]
  rfl

/-- The script finds no error exactly in proper specimens. -/
theorem layoutErrors_eq_nil {motors : List (List SpecimenConfig)} {sampleCount heaterCount : ℕ} :
    layoutErrors (toLayout motors) sampleCount heaterCount = [] ↔ Proper motors sampleCount heaterCount := by
  have hcast : Function.Injective (Nat.cast : ℕ → ℤ) := Nat.cast_injective
  have hlisted : ((toLayout motors).motors.zipIdx.filterMap fun motor =>
      if motor.1 = [] then some s!"motor{motor.2}.specimens lists no specimen" else none) = [] ↔
      ∀ group ∈ motors, group ≠ [] := by
    rw [List.filterMap_eq_nil_iff]
    simp only [ite_eq_right_iff, reduceCtorEq, imp_false]
    rw [forall_zipIdx (fun group => group ≠ []), toLayout, List.forall_mem_map]
    simp only [ne_eq, List.map_eq_nil_iff]
  have hcard : ((toLayout motors).motors.zipIdx.flatMap fun motor => motor.1.filterMap fun specimen =>
      if ¬ (1 ≤ specimen.channel ∧ specimen.channel ≤ 8) then
        some s!"motor{motor.2}.specimens: ch{specimen.channel} is not a card terminal (ch1..ch8)"
      else none) = [] ↔ ∀ specimen ∈ motors.flatten, 1 ≤ specimen.rtdChannel ∧ specimen.rtdChannel ≤ 8 := by
    rw [List.flatMap_eq_nil_iff]
    simp only [List.filterMap_eq_nil_iff, ite_eq_right_iff, reduceCtorEq, imp_false, not_not]
    rw [forall_zipIdx (fun group : List Specimen => ∀ specimen ∈ group, 1 ≤ specimen.channel ∧ specimen.channel ≤ 8), toLayout,
      List.forall_mem_map, List.forall_mem_flatten]
    simp only [List.forall_mem_map, SpecimenConfig.toSpecimen, Nat.one_le_cast, Nat.cast_le_ofNat]
  have hlengths : (toLayout motors).channels.length = motors.flatten.length := by
    rw [toLayout_channels, List.length_map, terminalsOf, List.length_map]
  have hheated : (toLayout motors).heaterLines.length = (linesOf motors.flatten).length := by
    rw [toLayout_heaterLines, List.length_map]
  have hnone {condition : Prop} [Decidable condition] (message : String) :
      (if condition then [message] else []) = [] ↔ ¬ condition := by
    by_cases h : condition <;> simp [h]
  unfold layoutErrors
  rw [List.append_eq_nil_iff, List.append_eq_nil_iff, List.append_eq_nil_iff, List.append_eq_nil_iff,
    List.append_eq_nil_iff, hlisted, hcard, List.map_eq_nil_iff, List.map_eq_nil_iff, repeated_eq_nil,
    repeated_eq_nil, toLayout_channels, toLayout_heaterLines, List.nodup_map_iff hcast, List.nodup_map_iff hcast,
    ← toLayout_channels, ← toLayout_heaterLines, hlengths, hheated, hnone, hnone, not_not, not_not]
  exact ⟨fun ⟨⟨⟨⟨⟨h1, h2⟩, h3⟩, h4⟩, h5⟩, h6⟩ => ⟨h1, h2, h3, h4, h5, h6⟩,
    fun h => ⟨⟨⟨⟨⟨h.listed, h.onCard⟩, h.terminals⟩, h.lines⟩, h.samples⟩, h.heaters⟩⟩

/-- Samples numbered on from a first one, motor after motor. -/
def samplesFrom (start : ℕ) : List (List SpecimenConfig) → List (List ℕ)
  | [] => []
  | group :: motors => List.range' start group.length :: samplesFrom (start + group.length) motors

/-- The samples at which motors start. -/
def startsFrom (start : ℕ) : List (List SpecimenConfig) → List ℕ
  | [] => []
  | group :: motors => start :: startsFrom (start + group.length) motors

/-- The samples of the heated ones among specimens numbered on from a first one. -/
def heatedFrom (start : ℕ) (specimens : List SpecimenConfig) : List ℕ :=
  ((specimens.zipIdx start).filter fun numbered => numbered.1.heaterLine.isSome).map Prod.snd

/-- Motor after motor, the samples go on in order. -/
theorem samplesFrom_flatten (start : ℕ) (motors : List (List SpecimenConfig)) :
    (samplesFrom start motors).flatten = List.range' start motors.flatten.length := by
  induction motors generalizing start with
  | nil => rfl
  | cons group motors ih =>
    rw [samplesFrom, List.flatten_cons, ih, List.flatten_cons, List.length_append, List.range'_append_1]

/-- The heated samples are numbered in order. -/
theorem heatedFrom_sublist (start : ℕ) (specimens : List SpecimenConfig) :
    (heatedFrom start specimens).Sublist (List.range' start specimens.length) := by
  rw [← List.zipIdx_map_snd start specimens]
  exact List.filter_sublist.map Prod.snd

namespace Filling

/-- Specimens entered one after the other. -/
theorem foldl_specimen (f : Filling) (specimens : List SpecimenConfig) :
    specimens.foldl Filling.specimen f =
      { f with
        sequentRtdChannels := f.sequentRtdChannels ++ terminalsOf specimens
        outputLines := f.outputLines ++ linesOf specimens
        temperatureChannels := f.temperatureChannels ++ heatedFrom f.sample specimens
        sample := f.sample + specimens.length
        samples := f.samples ++ List.range' f.sample specimens.length } := by
  induction specimens generalizing f with
  | nil => simp [terminalsOf, linesOf, heatedFrom]
  | cons specimen rest ih =>
    obtain ⟨channel, line⟩ := specimen
    have hnext : f.sample + 1 + rest.length = f.sample + (rest.length + 1) := by omega
    rw [List.foldl_cons, ih]
    cases line with
    | none => simp [Filling.specimen, terminalsOf, linesOf, heatedFrom, List.range'_succ, hnext]
    | some line => simp [Filling.specimen, terminalsOf, linesOf, heatedFrom, List.range'_succ, hnext]

/-- Motors entered one after the other. -/
theorem foldl_motor (f : Filling) (motors : List (List SpecimenConfig)) :
    (motors.foldl Filling.motor f).toLayoutMaps =
      { sequentRtdChannels := f.sequentRtdChannels ++ terminalsOf motors.flatten
        max31865SampleIndices := f.max31865SampleIndices ++ startsFrom f.sample motors
        outputLines := f.outputLines ++ linesOf motors.flatten
        temperatureChannels := f.temperatureChannels ++ heatedFrom f.sample motors.flatten
        motorSamples := f.motorSamples ++ samplesFrom f.sample motors } := by
  induction motors generalizing f with
  | nil => simp [terminalsOf, linesOf, heatedFrom, startsFrom, samplesFrom]
  | cons group motors ih =>
    rw [List.foldl_cons, ih, Filling.motor, foldl_specimen]
    simp [terminalsOf, linesOf, heatedFrom, startsFrom, samplesFrom, List.zipIdx_append]

end Filling

/-- The maps of the motors' specimens, in one go. -/
theorem fillMaps_eq (motors : List (List SpecimenConfig)) : fillMaps motors =
    ⟨terminalsOf motors.flatten, startsFrom 0 motors, linesOf motors.flatten, heatedFrom 0 motors.flatten,
      samplesFrom 0 motors⟩ := by
  unfold fillMaps
  rw [Filling.foldl_motor]
  simp

/-- The script's samples of each motor are the onboard's. -/
theorem toLayout_motorSamples (motors : List (List SpecimenConfig)) :
    (toLayout motors).motorSamples = samplesFrom 0 motors := by
  have hfold (groups : List (List ℕ)) (start : ℕ) :
      ((motors.map (List.map SpecimenConfig.toSpecimen)).foldl (fun (groups : List (List ℕ) × ℕ) group =>
        (groups.1 ++ [List.range' groups.2 group.length], groups.2 + group.length)) (groups, start)).1 =
      groups ++ samplesFrom start motors := by
    induction motors generalizing groups start with
    | nil => simp [samplesFrom]
    | cons group motors ih =>
      rw [List.map_cons, List.foldl_cons, ih, List.length_map, samplesFrom]
      simp
  exact hfold [] 0

/-- The script's samples of the heaters are the onboard's. -/
theorem toLayout_heaterSamples (motors : List (List SpecimenConfig)) :
    (toLayout motors).heaterSamples = heatedFrom 0 motors.flatten := by
  unfold Layout.heaterSamples heatedFrom
  rw [toLayout_specimens, List.zipIdx_map, List.filter_map, List.map_map]
  have hsame (numbered : SpecimenConfig × ℕ) :
      (numbered.1.toSpecimen.line.isSome) = numbered.1.heaterLine.isSome := Option.isSome_map
  simp only [Function.comp_def, Prod.map_fst, hsame]
  rfl

/-- The script's samples of the clicks are the onboard's, when every motor lists specimens. -/
theorem toLayout_clicks {motors : List (List SpecimenConfig)} (h : ∀ group ∈ motors, group ≠ []) :
    (toLayout motors).clicks = startsFrom 0 motors := by
  have hstarts (start : ℕ) : (samplesFrom start motors).filterMap List.head? = startsFrom start motors := by
    induction motors generalizing start with
    | nil => rfl
    | cons group motors ih =>
      obtain ⟨hgroup, hmotors⟩ := List.forall_mem_cons.mp h
      cases group with
      | nil => exact absurd rfl hgroup
      | cons specimen rest => simp [samplesFrom, startsFrom, List.range'_succ, ih hmotors]
  unfold Layout.clicks
  rw [toLayout_motorSamples, hstarts]

/-- The maps and the layout say the same. -/
structure LayoutMaps.Same (maps : LayoutMaps) (layout : Layout) : Prop where
  channels : maps.sequentRtdChannels.map (Nat.cast : ℕ → ℤ) = layout.channels
  heaterLines : maps.outputLines.map (Nat.cast : ℕ → ℤ) = layout.heaterLines
  heaterSamples : maps.temperatureChannels = layout.heaterSamples
  motorSamples : maps.motorSamples = layout.motorSamples
  clicks : maps.max31865SampleIndices = layout.clicks

/-- No terminal and no line twice, every sample on one motor, and each heater on a sample of its own. -/
structure LayoutMaps.Sound (maps : LayoutMaps) (sampleCount : ℕ) : Prop where
  channels : maps.sequentRtdChannels.Nodup
  lines : maps.outputLines.Nodup
  partition : maps.motorSamples.flatten.Perm (List.range sampleCount)
  heaters : maps.temperatureChannels.Nodup ∧ (∀ sample ∈ maps.temperatureChannels, sample < sampleCount)

/-- The maps of proper specimens are those of the layout, and sound. -/
theorem fillMaps_same {motors : List (List SpecimenConfig)} {sampleCount heaterCount : ℕ}
    (h : Proper motors sampleCount heaterCount) :
    (fillMaps motors).Same (toLayout motors) ∧ (fillMaps motors).Sound sampleCount := by
  rw [fillMaps_eq]
  have hheated := heatedFrom_sublist 0 motors.flatten
  rw [h.samples] at hheated
  refine ⟨⟨(toLayout_channels motors).symm, (toLayout_heaterLines motors).symm, (toLayout_heaterSamples motors).symm,
    (toLayout_motorSamples motors).symm, (toLayout_clicks h.listed).symm⟩, h.terminals, h.lines, ?_, ?_, ?_⟩
  · rw [samplesFrom_flatten, h.samples, List.range_eq_range']
  · exact hheated.nodup List.nodup_range'
  · intro sample hsample
    have hrange := hheated.subset hsample
    rw [List.mem_range'_1] at hrange
    omega

/-- The onboard accepts two texts exactly when proper specimens are written in them plainly. -/
theorem onboardLayout_eq_some {first second : List Char} {sampleCount heaterCount : ℕ} {maps : LayoutMaps} :
    onboardLayout [first, second] sampleCount heaterCount = some maps ↔
      ∃ one two, (onboard.Written first one ∧ onboard.Written second two) ∧
        Proper [one, two] sampleCount heaterCount ∧ maps = fillMaps [one, two] := by
  unfold onboardLayout
  constructor
  · intro h
    obtain ⟨motors, hmotors, h⟩ := Option.bind_eq_some_iff.mp h
    obtain ⟨one, rest, hone, hrest, rfl⟩ := List.forall₂_cons_left_iff.mp (mapM_eq_some.mp hmotors)
    obtain ⟨two, rest, htwo, hnil, rfl⟩ := List.forall₂_cons_left_iff.mp hrest
    obtain rfl := List.forall₂_nil_left_iff.mp hnil
    cases hderive : deriveLayoutFromSpecimens [one, two] sampleCount heaterCount with
    | error message =>
      rw [hderive] at h
      cases h
    | ok derived =>
      rw [hderive] at h
      obtain rfl := Option.some.inj h
      exact ⟨one, two, ⟨(parseSpecimenList_eq_some.mp hone).1, (parseSpecimenList_eq_some.mp htwo).1⟩,
        deriveLayoutFromSpecimens_eq_ok.mp hderive⟩
  · rintro ⟨one, two, ⟨hone, htwo⟩, hproper, rfl⟩
    have hone := parseSpecimenList_eq_some.mpr ⟨hone, hproper.listed one (by simp)⟩
    have htwo := parseSpecimenList_eq_some.mpr ⟨htwo, hproper.listed two (by simp)⟩
    rw [mapM_eq_some.mpr (.cons hone (.cons htwo .nil))]
    change (deriveLayoutFromSpecimens [one, two] sampleCount heaterCount).toOption = _
    rw [deriveLayoutFromSpecimens_eq_ok.mpr ⟨hproper, rfl⟩]
    rfl

/-- The script accepts two texts exactly when proper specimens are written in them. -/
theorem scriptLayout_eq_some {first second : List Char} {sampleCount heaterCount : ℕ} {layout : Layout} :
    scriptLayout [first, second] sampleCount heaterCount = some layout ↔
      ∃ one two, (ground.Written first one ∧ ground.Written second two) ∧
        Proper [one, two] sampleCount heaterCount ∧ layout = toLayout [one, two] := by
  unfold scriptLayout
  constructor
  · intro h
    split at h
    case h_1 => cases h
    case h_2 motors hmotors =>
      obtain ⟨one, rest, hone, hrest, rfl⟩ := List.forall₂_cons_left_iff.mp (mapM_eq_ok.mp hmotors)
      obtain ⟨two, rest, htwo, hnil, rfl⟩ := List.forall₂_cons_left_iff.mp hrest
      obtain rfl := List.forall₂_nil_left_iff.mp hnil
      obtain ⟨one, hfirst, rfl⟩ := parseSpecimens_eq_ok.mp hone
      obtain ⟨two, hsecond, rfl⟩ := parseSpecimens_eq_ok.mp htwo
      split at h
      case isTrue hnone =>
        exact ⟨one, two, ⟨hfirst, hsecond⟩, layoutErrors_eq_nil.mp hnone, (Option.some.inj h).symm⟩
      case isFalse => cases h
  · rintro ⟨one, two, ⟨hone, htwo⟩, hproper, rfl⟩
    have hone := parseSpecimens_eq_ok.mpr ⟨one, hone, rfl⟩
    have htwo := parseSpecimens_eq_ok.mpr ⟨two, htwo, rfl⟩
    rw [mapM_eq_ok.mpr (.cons hone (.cons htwo .nil))]
    exact if_pos (layoutErrors_eq_nil.mpr hproper)

/-- The onboard and the script accept the same two texts, and make the same sound maps of them. -/
def OneMeaning (first second : List Char) (sampleCount heaterCount : ℕ) : Prop :=
  ((scriptLayout [first, second] sampleCount heaterCount).isSome ↔
    (onboardLayout [first, second] sampleCount heaterCount).isSome) ∧
  ∀ layout maps, scriptLayout [first, second] sampleCount heaterCount = some layout →
    onboardLayout [first, second] sampleCount heaterCount = some maps → maps.Same layout ∧ maps.Sound sampleCount

/-- One text writes one list of specimens. -/
theorem written_unique {w : Spelling} {text : List Char} {first second : List SpecimenConfig}
    (hfirst : w.Written text first) (hsecond : w.Written text second) : first = second := by
  obtain ⟨items, last, hsplit⟩ := (List.eq_nil_or_concat' _).resolve_left (List.splitOn_ne_nil ',' text)
  have hunique : Relator.RightUnique w.Entry := fun item one two hone htwo =>
    Option.some.inj ((Spelling.read_eq_some.mpr hone).symm.trans (Spelling.read_eq_some.mpr htwo))
  exact List.right_unique_forall₂' hunique ((Spelling.written_iff hsplit).mp hfirst)
    ((Spelling.written_iff hsplit).mp hsecond)

/-- Proper specimens are written in the two texts. -/
def WritesProper (first second : List Char) (sampleCount heaterCount : ℕ) : Prop :=
  ∃ one two, (ground.Written first one ∧ ground.Written second two) ∧ Proper [one, two] sampleCount heaterCount

/-- The script accepts the texts in which proper specimens are written. -/
theorem scriptLayout_isSome {first second : List Char} {sampleCount heaterCount : ℕ} :
    (scriptLayout [first, second] sampleCount heaterCount).isSome ↔
      WritesProper first second sampleCount heaterCount := by
  rw [Option.isSome_iff_exists]
  constructor
  · rintro ⟨layout, h⟩
    obtain ⟨one, two, hwritten, hproper, -⟩ := scriptLayout_eq_some.mp h
    exact ⟨one, two, hwritten, hproper⟩
  · rintro ⟨one, two, hwritten, hproper⟩
    exact ⟨_, scriptLayout_eq_some.mpr ⟨one, two, hwritten, hproper, rfl⟩⟩

/-- The onboard accepts the plain ones of them. -/
theorem onboardLayout_isSome {first second : List Char} {sampleCount heaterCount : ℕ} :
    (onboardLayout [first, second] sampleCount heaterCount).isSome ↔
      (Plain first ∧ Plain second) ∧ WritesProper first second sampleCount heaterCount := by
  rw [Option.isSome_iff_exists]
  constructor
  · rintro ⟨maps, h⟩
    obtain ⟨one, two, ⟨hone, htwo⟩, hproper, -⟩ := onboardLayout_eq_some.mp h
    obtain ⟨hfirst, hplain⟩ := (written_onboard (hproper.listed one (by simp))).mp hone
    obtain ⟨hsecond, hplain'⟩ := (written_onboard (hproper.listed two (by simp))).mp htwo
    exact ⟨⟨hplain, hplain'⟩, one, two, ⟨hfirst, hsecond⟩, hproper⟩
  · rintro ⟨⟨hplain, hplain'⟩, one, two, ⟨hfirst, hsecond⟩, hproper⟩
    have hone := (written_onboard (hproper.listed one (by simp))).mpr ⟨hfirst, hplain⟩
    have htwo := (written_onboard (hproper.listed two (by simp))).mpr ⟨hsecond, hplain'⟩
    exact ⟨_, onboardLayout_eq_some.mpr ⟨one, two, ⟨hone, htwo⟩, hproper, rfl⟩⟩

/-- Of texts that both accept they make the same maps. -/
theorem same_of_accepted {first second : List Char} {sampleCount heaterCount : ℕ} {layout : Layout}
    {maps : LayoutMaps} (hlayout : scriptLayout [first, second] sampleCount heaterCount = some layout)
    (hmaps : onboardLayout [first, second] sampleCount heaterCount = some maps) :
    maps.Same layout ∧ maps.Sound sampleCount := by
  obtain ⟨one, two, ⟨hone, htwo⟩, hproper, rfl⟩ := onboardLayout_eq_some.mp hmaps
  obtain ⟨one', two', ⟨hone', htwo'⟩, -, rfl⟩ := scriptLayout_eq_some.mp hlayout
  obtain ⟨hfirst, -⟩ := (written_onboard (hproper.listed one (by simp))).mp hone
  obtain ⟨hsecond, -⟩ := (written_onboard (hproper.listed two (by simp))).mp htwo
  rw [written_unique hone' hfirst, written_unique htwo' hsecond]
  exact fillMaps_same hproper

/-- Two texts have one meaning for onboard and script exactly when they are plain or do not write proper
specimens at all. -/
theorem oneMeaning_iff (first second : List Char) (sampleCount heaterCount : ℕ) :
    OneMeaning first second sampleCount heaterCount ↔
      (Plain first ∧ Plain second) ∨ ¬ WritesProper first second sampleCount heaterCount := by
  unfold OneMeaning
  rw [scriptLayout_isSome, onboardLayout_isSome]
  constructor
  · rintro ⟨haccepted, -⟩
    by_cases hproper : WritesProper first second sampleCount heaterCount
    · exact Or.inl (haccepted.mp hproper).1
    · exact Or.inr hproper
  · intro h
    refine ⟨⟨fun hproper => ⟨h.resolve_right (not_not.mpr hproper), hproper⟩, And.right⟩, ?_⟩
    exact fun layout maps => same_of_accepted

/-- Five digits for a terminal pass the script and stop the onboard. -/
theorem not_oneMeaning_longDigits : ¬ OneMeaning "ch00001:19".toList "ch2".toList 2 1 := by
  intro h
  have honboard : (onboardLayout ["ch00001:19".toList, "ch2".toList] 2 1).isSome = false := by decide +kernel
  have hscript : (scriptLayout ["ch00001:19".toList, "ch2".toList] 2 1).isSome = true := by decide +kernel
  exact Bool.false_ne_true (honboard.symm.trans (h.1.mp hscript))

end Coatheal.Wiring
