import Coatheal.Wiring.Loader

/-!
# Carrying an old file's wiring over

The setup script rewrites a file with index-based maps as one with specimens. It reads the maps, refuses
those that specimens cannot say, and puts each motor's click sample first. The wiring is carried over only
when each click's sample belongs to the motor of the click, which nothing checks.
-/

namespace Coatheal.Wiring

open Library
open Library.Text (trim getlines showInt)

/-- `_number_list`. -/
def numberList (value : List Char) : Option (List ℤ) :=
  ((value.splitOn ',').filter fun piece => PyText.strip piece ≠ []).mapM fun piece =>
    Literal.intLiteral (PyText.strip piece)

/-- The maps of a file as the script reads them. -/
structure ScriptMaps where
  lines : List ℤ
  feedback : List ℤ
  channels : List ℤ
  groups : List (List ℤ)
  clicks : List ℤ
deriving DecidableEq

/-- The first part of `layout_from_values`, without specimens: the maps with their defaults. -/
def readMaps (values : Values) : Option ScriptMaps := do
  let sampleCount ← PyText.int ((values "hardware.sample_count").getD "8".toList)
  let lines ← numberList ((values "heater.output_lines").getD "19,13,6,5,24,23".toList)
  let feedback ← values.readOr "heater.temperature_channels" numberList
    ((List.range lines.length).map (Nat.cast : ℕ → ℤ))
  let channels ← values.readOr "sensor.sequent_rtd_channels" numberList
    ((List.range' 1 sampleCount.toNat).map (Nat.cast : ℕ → ℤ))
  let group0 ← numberList ((values "motor0.samples").getD "0,1,2,3".toList)
  let group1 ← numberList ((values "motor1.samples").getD "4,5,6,7".toList)
  let clicks ← numberList ((values "sensor.max31865_sample_indices").getD "0,4".toList)
  return ⟨lines, feedback, channels, [group0, group1], clicks⟩

/-- A heated sample is entered in `line_of`, unless it is there already or is none of the samples. -/
def enterLine (samples : ℕ) (dict : List (ℤ × ℤ)) (entry : ℤ × ℤ) : Option (List (ℤ × ℤ)) :=
  if (dict.any fun known => known.1 = entry.1) || !(decide (0 ≤ entry.1 ∧ entry.1 < (samples : ℤ))) then none
  else some (dict ++ [entry])

/-- The `line_of` of `layout_from_values`: the line of each heated sample. -/
def lineOf (feedback lines : List ℤ) (samples : ℕ) : Option (List (ℤ × ℤ)) :=
  (feedback.zip lines).foldlM (enterLine samples) []

/-- The order of a motor's samples: the click's first, if it is one of them, and the others as they count. -/
def orderOf (samples : List ℤ) (click : Option ℤ) : List ℤ :=
  let order := samples.mergeSort (· ≤ ·)
  match click with
  | some click => if click ∈ order then click :: order.erase click else order
  | none => order

/-- The specimen of a sample. -/
def specimenOf (channels : List ℤ) (dict : List (ℤ × ℤ)) (sample : ℤ) : Specimen :=
  ⟨channels.getD sample.toNat 0, (dict.find? fun known => known.1 = sample).map Prod.snd⟩

/-- The second part of `layout_from_values`, without specimens. -/
def layoutOfMaps (m : ScriptMaps) : Option Layout :=
  if m.feedback.length ≠ m.lines.length then none
  else if m.groups.flatten.mergeSort (· ≤ ·) ≠ (List.range m.channels.length).map (Nat.cast : ℕ → ℤ) then none
  else do
    let dict ← lineOf m.feedback m.lines m.channels.length
    return ⟨m.groups.zipIdx.map fun group =>
      (orderOf group.1 m.clicks[group.2]?).map (specimenOf m.channels dict)⟩

/-- `layout_from_values`. -/
def layoutFromValues (values : Values) : Option Layout :=
  if values.sets specimenKeys then
    if specimenKeys.any fun key => (values key).isNone then none
    else if values.sets layoutKeys then none
    else do
      let first ← (parseSpecimens ((values "motor0.specimens").getD [])).toOption
      let second ← (parseSpecimens ((values "motor1.specimens").getD [])).toOption
      return ⟨[first, second]⟩
  else (readMaps values).bind layoutOfMaps

/-- A specimen in `format_specimens`. -/
def formatSpecimen (specimen : Specimen) : List Char :=
  "ch".toList ++ showInt specimen.channel ++ match specimen.line with
    | some line => ':' :: showInt line
    | none => []

/-- `format_specimens`. -/
def formatSpecimens (specimens : List Specimen) : List Char := [','].intercalate (specimens.map formatSpecimen)

/-- The layout in `onboard.example.ini`. -/
def exampleValues : Values := fun key =>
  if key = "hardware.sample_count" then some "8".toList
  else if key = "hardware.heater_count" then some "6".toList
  else if key = "motor0.specimens" then some "ch1:19,ch2:13,ch3:6,ch4:5".toList
  else if key = "motor1.specimens" then some "ch5:24,ch6:23,ch7,ch8".toList
  else none

/-- The specimens that a layout is written as. -/
def convertedValues (layout : Layout) : Values := fun key =>
  if key = "motor0.specimens" then (layout.motors[0]?).map formatSpecimens
  else if key = "motor1.specimens" then (layout.motors[1]?).map formatSpecimens
  else none

/-- The example with what the existing file sets of its keys, and else with what is converted. -/
def carryOver (existing converted : Values) : Values := fun key =>
  (exampleValues key).map fun value => (existing key).getD ((converted key).getD value)

/-- `_candidate_from_existing`. -/
def candidateFromExisting (existing : Values) : Option Values :=
  if !existing.sets specimenKeys && existing.sets layoutKeys then
    (layoutFromValues existing).map fun layout => carryOver existing (convertedValues layout)
  else some (carryOver existing fun _ => none)

/-- A terminal whose PT100 is on a specimen that a motor pulls. -/
def LayoutMaps.Pulls (maps : LayoutMaps) (motor terminal : ℕ) : Prop :=
  ∃ samples sample, maps.motorSamples[motor]? = some samples ∧ sample ∈ samples ∧
    maps.sequentRtdChannels[sample]? = some terminal

/-- A line that heats the specimen of a terminal. -/
def LayoutMaps.Heats (maps : LayoutMaps) (line terminal : ℕ) : Prop :=
  ∃ heater sample : ℕ, maps.outputLines[heater]? = some line ∧ maps.temperatureChannels[heater]? = some sample ∧
    maps.sequentRtdChannels[sample]? = some terminal

/-- A click that reads the specimen of a terminal. -/
def LayoutMaps.Reads (maps : LayoutMaps) (click terminal : ℕ) : Prop :=
  ∃ sample, maps.max31865SampleIndices[click]? = some sample ∧ maps.sequentRtdChannels[sample]? = some terminal

/-- The same wires: the same terminals on each motor, the same lines on each terminal's specimen, and the same
terminal's specimen on each click. -/
structure LayoutMaps.SameWiring (maps other : LayoutMaps) : Prop where
  pulls : ∀ motor terminal, maps.Pulls motor terminal ↔ other.Pulls motor terminal
  heats : ∀ line terminal, maps.Heats line terminal ↔ other.Heats line terminal
  reads : ∀ click terminal, maps.Reads click terminal ↔ other.Reads click terminal

/-- The script refuses a file, or the file it makes says the same wiring. -/
def Migrates (values : Values) (config : LayoutConfig) : Prop :=
  ∀ candidate, candidateFromExisting values = some candidate →
    ∃ derived, readLayout candidate = some derived ∧ derived.maps.SameWiring config.maps

/-- The maps say what specimens can say: one line for each heated sample, each sample on one motor. -/
structure ScriptMaps.ListForm (m : ScriptMaps) : Prop where
  heaters : m.feedback.length = m.lines.length
  groups : m.groups.flatten.Perm ((List.range m.channels.length).map (Nat.cast : ℕ → ℤ))
  heated : m.feedback.Nodup
  feedback : ∀ sample ∈ m.feedback, 0 ≤ sample ∧ sample < m.channels.length

/-- The maps can be written as specimens, and each click's sample stands first in its motor's. -/
structure ScriptMaps.Carried (m : ScriptMaps) (config : LayoutConfig) : Prop where
  lines : m.lines ≠ []
  line : ∀ line ∈ m.lines, 0 ≤ line ∧ line < 10000
  channel : ∀ channel ∈ m.channels, 0 ≤ channel
  click : ∀ (motor : ℕ) samples click, m.groups[motor]? = some samples →
    config.maps.max31865SampleIndices[motor]? = some click →
    (click : ℤ) ∈ samples ∧ (m.clicks[motor]? = some (click : ℤ) ∨ ∀ sample ∈ samples, (click : ℤ) ≤ sample)

/-- What `int` with base zero makes of a number the loader reads: the number, or something negative for what
has a minus sign. -/
def Agrees (number : ℤ) (size : ℕ) : Prop := number = size ∨ number < 0

/-- Numbers that are not negative are the loader's. -/
theorem eq_of_agrees {numbers : List ℤ} {sizes : List ℕ} (h : List.Forall₂ Agrees numbers sizes)
    (hnonneg : ∀ number ∈ numbers, 0 ≤ number) : numbers = sizes.map (Nat.cast : ℕ → ℤ) := by
  induction h with
  | nil => rfl
  | cons hfirst _ ih =>
    obtain ⟨hzero, hrest⟩ := List.forall_mem_cons.mp hnonneg
    rw [List.map_cons, ih hrest, hfirst.resolve_right (not_lt.mpr hzero)]

/-- The loader's numbers agree with themselves. -/
theorem agrees_self (sizes : List ℕ) : List.Forall₂ Agrees (sizes.map (Nat.cast : ℕ → ℤ)) sizes :=
  List.forall₂_map_left_iff.mpr (List.forall₂_same.mpr fun _ _ => Or.inl rfl)

/-- The script strips an item as the loader trims it, when it reads as a number. -/
theorem strip_eq_trim {item : List Char} {size : ℕ}
    (h : Literal.streamSize (trim Text.isSpace item) = some size) : PyText.strip item = trim Text.isSpace item := by
  obtain ⟨front, back, hitem, hfront, hback⟩ := Text.padded_trim Text.isSpace item
  have hstrip := (Literal.plain_of_streamSize h).1
  calc PyText.strip item
      = PyText.strip (front ++ trim Text.isSpace item ++ back) := congrArg PyText.strip hitem
    _ = PyText.strip (front ++ trim Text.isSpace item) :=
        PyText.strip_append_right fun c hc => pySpace_of_isSpace (hback c hc)
    _ = PyText.strip (trim Text.isSpace item) :=
        PyText.strip_append_left fun c hc => pySpace_of_isSpace (hfront c hc)
    _ = trim Text.isSpace item := hstrip

/-- Lists that both read agree number by number. -/
theorem numberList_agrees {value : List Char} {numbers : List ℤ} {sizes : List ℕ}
    (hsizes : parseSizeList value = some sizes) (hnumbers : numberList value = some numbers) :
    List.Forall₂ Agrees numbers sizes := by
  have hread := mapM_eq_some.mp hsizes
  have hitem {item : List Char} {size : ℕ} (h : (let trimmed := trim Text.isSpace item
      if trimmed = [] then none else parseNumber trimmed) = some size) :
      Literal.streamSize (trim Text.isSpace item) = some size ∧ PyText.strip item ≠ [] := by
    dsimp only at h
    split at h
    case isTrue => cases h
    case isFalse hne =>
      unfold parseNumber at h
      rw [Text.trim_trim] at h
      exact ⟨h, by rwa [strip_eq_trim h]⟩
  have hkept : (value.splitOn ',').filter (fun piece => decide (PyText.strip piece ≠ [])) = getlines ',' value := by
    have hlines : (getlines ',' value).filter (fun piece => decide (PyText.strip piece ≠ [])) = getlines ',' value := by
      refine List.filter_eq_self.mpr fun piece hpiece => decide_eq_true ?_
      obtain ⟨size, hsize⟩ := Spelling.exists_of_forall₂ hread piece hpiece
      exact (hitem hsize).2
    rcases PyText.splitOn_eq_getlines ',' value with hsame | hempty
    · rw [hsame, hlines]
    · rw [hempty, List.filter_append, hlines]
      exact List.append_nil _
  have hliterals := mapM_eq_some.mp hnumbers
  rw [hkept] at hliterals
  clear hkept hsizes hnumbers
  generalize getlines ',' value = items at hread hliterals
  induction hread generalizing numbers with
  | nil =>
    rw [List.forall₂_nil_left_iff.mp hliterals]
    exact .nil
  | cons hfirst _ ih =>
    obtain ⟨number, rest, hnumber, hrest, rfl⟩ := List.forall₂_cons_left_iff.mp hliterals
    obtain ⟨hsize, -⟩ := hitem hfirst
    rw [strip_eq_trim hsize] at hnumber
    exact .cons (Literal.intLiteral_of_streamSize hsize hnumber) (ih hrest)

/-- So do lists with the same default. -/
theorem readOr_agrees {values : Values} {key : String} {default : List Char} {defaults sizes : List ℕ}
    {numbers : List ℤ} (hdefault : numberList default = some (defaults.map (Nat.cast : ℕ → ℤ)))
    (hsizes : values.readOr key parseSizeList defaults = some sizes)
    (hnumbers : numberList ((values key).getD default) = some numbers) : List.Forall₂ Agrees numbers sizes := by
  unfold Values.readOr at hsizes
  cases hvalue : values key with
  | none =>
    rw [hvalue] at hsizes hnumbers
    obtain rfl := Option.some.inj hsizes
    obtain rfl := Option.some.inj (hdefault.symm.trans hnumbers)
    exact agrees_self defaults
  | some value =>
    rw [hvalue] at hsizes hnumbers
    exact numberList_agrees hsizes hnumbers

/-- What the script reads of a file without specimens that the loader reads too. -/
structure Reading (m : ScriptMaps) (config : LayoutConfig) : Prop where
  lines : List.Forall₂ Agrees m.lines config.maps.outputLines
  groups : List.Forall₂ (List.Forall₂ Agrees) m.groups config.maps.motorSamples
  clicks : List.Forall₂ Agrees m.clicks config.maps.max31865SampleIndices
  feedback : List.Forall₂ Agrees m.feedback config.maps.temperatureChannels ∨
    m.feedback = (List.range m.lines.length).map (Nat.cast : ℕ → ℤ) ∧
      config.maps.temperatureChannels = [0, 1, 2, 3, 4, 5]
  channels : List.Forall₂ Agrees m.channels config.maps.sequentRtdChannels ∨
    ∃ count : ℤ, (count < 0 ∨ (config.sampleCount : ℤ) ≤ count) ∧
      m.channels = (List.range' 1 count.toNat).map (Nat.cast : ℕ → ℤ) ∧
      config.maps.sequentRtdChannels = [1, 2, 3, 4, 5, 6, 7, 8]

/-- The script reads the loader's maps. -/
theorem reading_of_read {values : Values} {config : LayoutConfig} {m : ScriptMaps}
    (hread : readLayout values = some config) (hlegacy : values.sets specimenKeys = false)
    (hm : readMaps values = some m) : Reading m config := by
  obtain ⟨hcount, -, hlines, htemperature, hchannels, hclicks, samples0, samples1, h0, h1, hsamples⟩ :=
    readLayout_legacy hread hlegacy
  unfold readMaps at hm
  obtain ⟨count, hpyCount, hm⟩ := Option.bind_eq_some_iff.mp hm
  obtain ⟨lines, hpyLines, hm⟩ := Option.bind_eq_some_iff.mp hm
  obtain ⟨feedback, hpyFeedback, hm⟩ := Option.bind_eq_some_iff.mp hm
  obtain ⟨channels, hpyChannels, hm⟩ := Option.bind_eq_some_iff.mp hm
  obtain ⟨group0, hpy0, hm⟩ := Option.bind_eq_some_iff.mp hm
  obtain ⟨group1, hpy1, hm⟩ := Option.bind_eq_some_iff.mp hm
  obtain ⟨clicks, hpyClicks, hm⟩ := Option.bind_eq_some_iff.mp hm
  obtain rfl := Option.some.inj hm
  have hcounts : count < 0 ∨ (config.sampleCount : ℤ) ≤ count := by
    unfold Values.readOr at hcount
    cases hvalue : values "hardware.sample_count" with
    | none =>
      rw [hvalue] at hcount hpyCount
      have height : PyText.int "8".toList = some 8 := by decide
      obtain rfl := Option.some.inj (height.symm.trans hpyCount)
      rw [← Option.some.inj hcount]
      exact Or.inr (by decide)
    | some value =>
      rw [hvalue] at hcount hpyCount
      have hpyCount : PyText.int value = some count := hpyCount
      rw [← PyText.int_strip, strip_eq_trim hcount] at hpyCount
      exact Literal.int_of_streamSize hcount hpyCount
  refine ⟨readOr_agrees (by decide) hlines hpyLines, ?_, readOr_agrees (by decide) hclicks hpyClicks, ?_, ?_⟩
  · rw [hsamples]
    exact .cons (readOr_agrees (by decide) h0 hpy0) (.cons (readOr_agrees (by decide) h1 hpy1) .nil)
  · unfold Values.readOr at htemperature hpyFeedback
    cases hvalue : values "heater.temperature_channels" with
    | none =>
      rw [hvalue] at htemperature hpyFeedback
      exact Or.inr ⟨(Option.some.inj hpyFeedback).symm, (Option.some.inj htemperature).symm⟩
    | some value =>
      rw [hvalue] at htemperature hpyFeedback
      exact Or.inl (numberList_agrees htemperature hpyFeedback)
  · unfold Values.readOr at hchannels hpyChannels
    cases hvalue : values "sensor.sequent_rtd_channels" with
    | none =>
      rw [hvalue] at hchannels hpyChannels
      exact Or.inr ⟨count, hcounts, (Option.some.inj hpyChannels).symm, (Option.some.inj hchannels).symm⟩
    | some value =>
      rw [hvalue] at hchannels hpyChannels
      exact Or.inl (numberList_agrees hchannels hpyChannels)

/-- A sample is entered when it is new and there is such a sample. -/
theorem enterLine_eq_some {samples : ℕ} {known next : List (ℤ × ℤ)} {entry : ℤ × ℤ} :
    enterLine samples known entry = some next ↔
      (entry.1 ∉ known.map Prod.fst ∧ 0 ≤ entry.1 ∧ entry.1 < samples) ∧ next = known ++ [entry] := by
  have hcondition : ((known.any fun other => decide (other.1 = entry.1)) ||
      !(decide (0 ≤ entry.1 ∧ entry.1 < (samples : ℤ)))) = true ↔
      ¬ (entry.1 ∉ known.map Prod.fst ∧ 0 ≤ entry.1 ∧ entry.1 < samples) := by
    have hany : (∃ other ∈ known, decide (other.1 = entry.1) = true) ↔ entry.1 ∈ known.map Prod.fst := by
      simp only [decide_eq_true_eq, List.mem_map]
    rw [Bool.or_eq_true, List.any_eq_true, Bool.not_eq_true', decide_eq_false_iff_not, hany]
    tauto
  unfold enterLine
  by_cases hgood : entry.1 ∉ known.map Prod.fst ∧ 0 ≤ entry.1 ∧ entry.1 < samples
  · rw [if_neg (mt hcondition.mp (not_not.mpr hgood))]
    exact ⟨fun h => ⟨hgood, (Option.some.inj h).symm⟩, fun h => congrArg some h.2.symm⟩
  · rw [if_pos (hcondition.mpr hgood)]
    exact ⟨fun h => (nomatch h), fun h => absurd h.1 hgood⟩

/-- Samples are entered one after the other exactly when each is there and none comes twice. -/
theorem enterLines_eq_some {samples : ℕ} {known entries dict : List (ℤ × ℤ)} (hknown : (known.map Prod.fst).Nodup) :
    entries.foldlM (enterLine samples) known = some dict ↔
      (((known ++ entries).map Prod.fst).Nodup ∧ ∀ entry ∈ entries, 0 ≤ entry.1 ∧ entry.1 < samples) ∧
        dict = known ++ entries := by
  induction entries generalizing known with
  | nil =>
    rw [List.append_nil]
    exact ⟨fun h => ⟨⟨hknown, by simp⟩, (Option.some.inj h).symm⟩, fun h => congrArg some h.2.symm⟩
  | cons entry entries ih =>
    have happend : known ++ entry :: entries = (known ++ [entry]) ++ entries := by simp
    have hnext (h : entry.1 ∉ known.map Prod.fst) : ((known ++ [entry]).map Prod.fst).Nodup := by
      rw [List.map_append, List.nodup_append]
      refine ⟨hknown, List.nodup_singleton _, fun first hfirst second hsecond => ?_⟩
      rw [List.map_singleton, List.mem_singleton] at hsecond
      exact fun heq => h (hsecond ▸ heq ▸ hfirst)
    rw [List.foldlM_cons, List.forall_mem_cons, happend]
    constructor
    · intro h
      obtain ⟨next, hentry, h⟩ := Option.bind_eq_some_iff.mp h
      obtain ⟨⟨hnew, hrange⟩, rfl⟩ := enterLine_eq_some.mp hentry
      obtain ⟨⟨hnodup, hranges⟩, hdict⟩ := (ih (hnext hnew)).mp h
      exact ⟨⟨hnodup, hrange, hranges⟩, hdict⟩
    · rintro ⟨⟨hnodup, hrange, hranges⟩, hdict⟩
      have hnew : entry.1 ∉ known.map Prod.fst := by
        rw [List.map_append] at hnodup
        have hfirst := (List.nodup_append.mp hnodup).1
        rw [List.map_append, List.map_singleton, List.nodup_append] at hfirst
        exact fun hmem => hfirst.2.2 entry.1 hmem entry.1 (List.mem_singleton_self _) rfl
      rw [enterLine_eq_some.mpr ⟨⟨hnew, hrange⟩, rfl⟩]
      exact (ih (hnext hnew)).mpr ⟨⟨hnodup, hranges⟩, hdict⟩

/-- The lines go by the samples exactly when each is heated once and is one of those there are. -/
theorem lineOf_eq_some {feedback lines : List ℤ} {samples : ℕ} {dict : List (ℤ × ℤ)}
    (hlength : feedback.length = lines.length) : lineOf feedback lines samples = some dict ↔
      (feedback.Nodup ∧ ∀ sample ∈ feedback, 0 ≤ sample ∧ sample < samples) ∧ dict = feedback.zip lines := by
  have hkeys : (feedback.zip lines).map Prod.fst = feedback := List.map_fst_zip hlength.le
  have hrange : (∀ entry ∈ feedback.zip lines, 0 ≤ entry.1 ∧ entry.1 < (samples : ℤ)) ↔
      ∀ sample ∈ feedback, 0 ≤ sample ∧ sample < samples := by
    conv_rhs => rw [← hkeys]
    rw [List.forall_mem_map]
  have hnone : (([] : List (ℤ × ℤ)).map Prod.fst).Nodup := List.nodup_nil
  unfold lineOf
  rw [enterLines_eq_some hnone, List.nil_append, hkeys, hrange]

/-- In order, the samples are all there are exactly when each is there once. -/
theorem mergeSort_eq_range {samples : List ℤ} {count : ℕ} :
    samples.mergeSort (· ≤ ·) = (List.range count).map (Nat.cast : ℕ → ℤ) ↔
      samples.Perm ((List.range count).map (Nat.cast : ℕ → ℤ)) := by
  have hsorted : ((List.range count).map (Nat.cast : ℕ → ℤ)).Pairwise (· ≤ ·) := by
    rw [List.pairwise_map]
    exact List.pairwise_lt_range.imp fun h => by exact_mod_cast h.le
  have hmerge : (samples.mergeSort (· ≤ ·)).Pairwise (· ≤ ·) := by
    exact List.pairwise_mergeSort' (· ≤ ·) samples
  constructor
  · intro h
    rw [← h]
    exact (List.mergeSort_perm samples _).symm
  · intro h
    exact ((List.mergeSort_perm samples _).trans h).eq_of_pairwise (fun _ _ _ _ => le_antisymm) hmerge hsorted

/-- The script makes a layout of exactly the maps in list form. -/
theorem layoutOfMaps_eq_some {m : ScriptMaps} {layout : Layout} : layoutOfMaps m = some layout ↔
    m.ListForm ∧ layout = ⟨m.groups.zipIdx.map fun group =>
      (orderOf group.1 m.clicks[group.2]?).map (specimenOf m.channels (m.feedback.zip m.lines))⟩ := by
  unfold layoutOfMaps
  by_cases hlength : m.feedback.length = m.lines.length
  swap
  · rw [if_pos hlength]
    exact ⟨fun h => (nomatch h), fun h => absurd h.1.heaters hlength⟩
  rw [if_neg (not_not.mpr hlength)]
  by_cases hgroups : m.groups.flatten.mergeSort (· ≤ ·) = (List.range m.channels.length).map (Nat.cast : ℕ → ℤ)
  swap
  · rw [if_pos hgroups]
    exact ⟨fun h => (nomatch h), fun h => absurd (mergeSort_eq_range.mpr h.1.groups) hgroups⟩
  rw [if_neg (not_not.mpr hgroups)]
  constructor
  · intro h
    obtain ⟨dict, hdict, h⟩ := Option.bind_eq_some_iff.mp h
    obtain ⟨⟨hnodup, hrange⟩, rfl⟩ := (lineOf_eq_some hlength).mp hdict
    exact ⟨⟨hlength, mergeSort_eq_range.mp hgroups, hnodup, hrange⟩, (Option.some.inj h).symm⟩
  · rintro ⟨h, rfl⟩
    rw [(lineOf_eq_some hlength).mpr ⟨⟨h.heated, h.feedback⟩, rfl⟩]
    rfl

end Coatheal.Wiring
