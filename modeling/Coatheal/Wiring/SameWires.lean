import Coatheal.Wiring.Carrying
import Mathlib.Data.List.GetD
import Mathlib.Data.List.Perm.Basic

/-!
# When migration keeps the wires

The specimens the script writes have the terminals and the lines of the old maps, whatever their order. So a
migrated file says the old wiring when its numbers can be written and each click's sample comes first in its
motor's list, and only then.
-/

namespace Coatheal.Wiring

open Library

/-- Numbers are the same as integers only when they are the same. -/
theorem cast_injective : Function.Injective (Nat.cast : ℕ → ℤ) := Nat.cast_injective

/-- The order of a motor's samples has each of them once. -/
theorem orderOf_perm (samples : List ℤ) (click : Option ℤ) : (orderOf samples click).Perm samples := by
  unfold orderOf
  cases click with
  | none => exact List.mergeSort_perm samples _
  | some click =>
    dsimp only
    split
    case isTrue hmem => exact (List.perm_cons_erase hmem).symm.trans (List.mergeSort_perm samples _)
    case isFalse => exact List.mergeSort_perm samples _

/-- The first of a motor's samples is the click's, or the least when the click has none of them. -/
theorem orderOf_head {samples : List ℤ} {click : Option ℤ} {first : ℤ}
    (h : (orderOf samples click).head? = some first) :
    first ∈ samples ∧ ((∃ other, click = some other ∧ first = other) ∨
      (∀ other ∈ click, other ∉ samples) ∧ ∀ sample ∈ samples, first ≤ sample) := by
  have hmem : first ∈ samples := (orderOf_perm samples click).mem_iff.mp (List.mem_of_head? h)
  refine ⟨hmem, ?_⟩
  have hleast (hhead : (samples.mergeSort (· ≤ ·)).head? = some first) : ∀ sample ∈ samples, first ≤ sample := by
    intro sample hsample
    have hsorted : (samples.mergeSort (· ≤ ·)).Pairwise (· ≤ ·) := List.pairwise_mergeSort' (· ≤ ·) samples
    have hin : sample ∈ samples.mergeSort (· ≤ ·) := (List.mergeSort_perm samples _).mem_iff.mpr hsample
    cases hsort : samples.mergeSort (· ≤ ·) with
    | nil =>
      rw [hsort] at hin
      exact absurd hin List.not_mem_nil
    | cons least rest =>
      rw [hsort] at hin hhead hsorted
      obtain rfl := Option.some.inj hhead
      rcases List.mem_cons.mp hin with rfl | hrest
      · exact le_rfl
      · exact (List.pairwise_cons.mp hsorted).1 sample hrest
  unfold orderOf at h
  cases click with
  | none => exact Or.inr ⟨fun other hother => (nomatch hother), hleast h⟩
  | some click =>
    dsimp only at h
    split at h
    case isTrue hin => exact Or.inl ⟨click, rfl, (Option.some.inj h).symm⟩
    case isFalse hout =>
      refine Or.inr ⟨fun other hother hin => ?_, hleast h⟩
      obtain rfl := Option.some.inj hother
      exact hout ((List.mergeSort_perm samples _).mem_iff.mpr hin)

/-- A click that the script reads as the loader does, or as something negative, comes first exactly when its
sample is one of the motor's, and is read right or is the least. -/
theorem orderOf_head_iff {samples : List ℕ} {number : ℤ} {click : ℕ} (hagree : Agrees number click) :
    (orderOf (samples.map (Nat.cast : ℕ → ℤ)) (some number)).head? = some (click : ℤ) ↔
      (click : ℤ) ∈ samples.map (Nat.cast : ℕ → ℤ) ∧
        (some number = some (click : ℤ) ∨ ∀ sample ∈ samples.map (Nat.cast : ℕ → ℤ), (click : ℤ) ≤ sample) := by
  constructor
  · intro hhead
    obtain ⟨hmem, ⟨other, hother, hsame⟩ | ⟨-, hleast⟩⟩ := orderOf_head hhead
    · exact ⟨hmem, Or.inl (hother.trans (congrArg some hsame.symm))⟩
    · exact ⟨hmem, Or.inr hleast⟩
  · rintro ⟨hmem, hfirst⟩
    rcases hagree with rfl | hneg
    · have hsorted : (click : ℤ) ∈ (samples.map (Nat.cast : ℕ → ℤ)).mergeSort (· ≤ ·) :=
        (List.mergeSort_perm _ _).mem_iff.mpr hmem
      unfold orderOf
      dsimp only
      rw [if_pos hsorted]
      rfl
    · have hleast : ∀ sample ∈ samples.map (Nat.cast : ℕ → ℤ), (click : ℤ) ≤ sample := by
        refine hfirst.resolve_left fun hsame => ?_
        have hnumber := Option.some.inj hsame
        omega
      have hne : orderOf (samples.map (Nat.cast : ℕ → ℤ)) (some number) ≠ [] := by
        intro hnil
        have hperm := orderOf_perm (samples.map (Nat.cast : ℕ → ℤ)) (some number)
        rw [hnil] at hperm
        exact List.not_mem_nil (hperm.mem_iff.mpr hmem)
      obtain ⟨first, rest, horder⟩ := List.exists_cons_of_ne_nil hne
      have hhead : (orderOf (samples.map (Nat.cast : ℕ → ℤ)) (some number)).head? = some first := by
        rw [horder]
        rfl
      rw [hhead]
      obtain ⟨hin, ⟨other, hother, hsame⟩ | ⟨-, hmin⟩⟩ := orderOf_head hhead
      · obtain ⟨size, -, hsize⟩ := List.mem_map.mp hin
        have hnumber := Option.some.inj hother
        omega
      · exact congrArg some (le_antisymm (hmin _ hmem) (hleast _ hin))

/-- The line of a sample is the one it stands with. -/
theorem find?_zip {feedback lines : List ℤ} (hnodup : feedback.Nodup) (hlength : feedback.length = lines.length)
    {sample line : ℤ} : ((feedback.zip lines).find? fun known => known.1 = sample).map Prod.snd = some line ↔
      (sample, line) ∈ feedback.zip lines := by
  have hkeys : ((feedback.zip lines).map Prod.fst).Nodup := by rwa [List.map_fst_zip hlength.le]
  constructor
  · intro h
    obtain ⟨⟨key, value⟩, hfind, rfl⟩ := Option.map_eq_some_iff.mp h
    have hkey := List.find?_some hfind
    have hkey : key = sample := by simpa using hkey
    rw [← hkey]
    exact List.mem_of_find?_eq_some hfind
  · intro hmem
    cases hfind : (feedback.zip lines).find? fun known => known.1 = sample with
    | none =>
      have hno := List.find?_eq_none.mp hfind (sample, line) hmem
      simp at hno
    | some entry =>
      have hkey := List.find?_some hfind
      have hkey : entry.1 = sample := by simpa using hkey
      have hentry : entry = (sample, line) :=
        List.inj_on_of_nodup_map hkeys (List.mem_of_find?_eq_some hfind) hmem hkey
      rw [hentry]
      rfl

/-- All samples. -/
def allSamples (m : ScriptMaps) : List ℤ := (List.range m.channels.length).map (Nat.cast : ℕ → ℤ)

/-- The specimens of all samples have the terminals. -/
theorem allSamples_channels (m : ScriptMaps) (dict : List (ℤ × ℤ)) :
    ((allSamples m).map (specimenOf m.channels dict)).map Specimen.channel = m.channels := by
  unfold allSamples
  rw [List.map_map, List.map_map]
  refine List.ext_getElem (by simp) fun place h h' => ?_
  simp [specimenOf, h']

/-- They have the lines. -/
theorem allSamples_lines {m : ScriptMaps} (h : m.ListForm) :
    (((allSamples m).map (specimenOf m.channels (m.feedback.zip m.lines))).filterMap Specimen.line).Perm m.lines := by
  have hlookup {sample : ℤ} : (specimenOf m.channels (m.feedback.zip m.lines) sample).line =
      ((m.feedback.zip m.lines).find? fun known => known.1 = sample).map Prod.snd := rfl
  have hnodup : (allSamples m).Nodup := List.nodup_range.map Nat.cast_injective
  have hheated : ((allSamples m).filter (· ∈ m.feedback)).Perm m.feedback := by
    refine (List.perm_ext_iff_of_nodup (hnodup.filter _) h.heated).mpr fun sample => ?_
    rw [List.mem_filter, decide_eq_true_eq]
    refine ⟨And.right, fun hmem => ⟨List.mem_map.mpr ⟨sample.toNat, ?_, ?_⟩, hmem⟩⟩
    · have hrange := h.feedback sample hmem
      rw [List.mem_range]
      omega
    · have hrange := h.feedback sample hmem
      omega
  have hcold : ((allSamples m).filter fun sample => !decide (sample ∈ m.feedback)).filterMap
      (fun sample => (specimenOf m.channels (m.feedback.zip m.lines) sample).line) = [] := by
    rw [List.filterMap_eq_nil_iff]
    intro sample hsample
    have hnone : sample ∉ m.feedback := by simpa using (List.mem_filter.mp hsample).2
    rw [hlookup, Option.map_eq_none_iff, List.find?_eq_none]
    intro entry hentry hkey
    have hkey : entry.1 = sample := by simpa using hkey
    exact hnone (hkey ▸ (List.of_mem_zip hentry).1)
  have hlines : m.feedback.filterMap
      (fun sample => (specimenOf m.channels (m.feedback.zip m.lines) sample).line) = m.lines := by
    have hzip : ((m.feedback.zip m.lines).map Prod.fst).filterMap
        (fun sample => (specimenOf m.channels (m.feedback.zip m.lines) sample).line) =
        (m.feedback.zip m.lines).map Prod.snd := by
      rw [List.filterMap_map, ← List.filterMap_eq_map]
      refine List.filterMap_congr fun entry hentry => ?_
      exact (find?_zip h.heated h.heaters).mpr hentry
    rwa [List.map_fst_zip h.heaters.le, List.map_snd_zip h.heaters.ge] at hzip
  rw [List.filterMap_map]
  have hsplit := (List.filter_append_perm (· ∈ m.feedback) (allSamples m)).symm.filterMap
    (fun sample => (specimenOf m.channels (m.feedback.zip m.lines) sample).line)
  rw [List.filterMap_append, hcold, List.append_nil] at hsplit
  refine hsplit.trans ((hheated.filterMap _).trans ?_)
  rw [hlines]

/-- The specimens of the motors, as the script orders them. -/
def motorSpecimens (m : ScriptMaps) : List (List Specimen) :=
  m.groups.zipIdx.map fun group =>
    (orderOf group.1 m.clicks[group.2]?).map (specimenOf m.channels (m.feedback.zip m.lines))

/-- They are the specimens of all samples. -/
theorem motorSpecimens_perm {m : ScriptMaps} (h : m.ListForm) :
    (motorSpecimens m).flatten.Perm ((allSamples m).map (specimenOf m.channels (m.feedback.zip m.lines))) := by
  have hgroups (groups : List (List ℤ)) (start : ℕ) :
      ((groups.zipIdx start).map fun group => (orderOf group.1 m.clicks[group.2]?).map
        (specimenOf m.channels (m.feedback.zip m.lines))).flatten.Perm
        (groups.flatten.map (specimenOf m.channels (m.feedback.zip m.lines))) := by
    induction groups generalizing start with
    | nil => exact .refl _
    | cons group groups ih =>
      rw [List.zipIdx_cons, List.map_cons, List.flatten_cons, List.flatten_cons, List.map_append]
      exact ((orderOf_perm group _).map _).append (ih (start + 1))
  exact (hgroups m.groups 0).trans (h.groups.map _)

/-- Maps in list form that the script reads of a file the loader accepts. -/
structure Convertible (m : ScriptMaps) (config : LayoutConfig) : Prop where
  reading : Reading m config
  accepted : config.Accepted
  form : m.ListForm
  motors : m.groups.length = 2

namespace Convertible

variable {m : ScriptMaps} {config : LayoutConfig}

/-- The motors' samples are the loader's. -/
theorem groups_eq (h : Convertible m config) :
    m.groups = config.maps.motorSamples.map (List.map (Nat.cast : ℕ → ℤ)) := by
  have hnonneg : ∀ group ∈ m.groups, ∀ sample ∈ group, 0 ≤ sample := by
    intro group hgroup sample hsample
    have hmem := h.form.groups.mem_iff.mp (List.mem_flatten.mpr ⟨group, hgroup, hsample⟩)
    obtain ⟨number, -, rfl⟩ := List.mem_map.mp hmem
    exact Int.natCast_nonneg number
  have hgroups := h.reading.groups
  clear h
  generalize m.groups = groups at hnonneg hgroups
  generalize config.maps.motorSamples = motors at hgroups
  induction hgroups with
  | nil => rfl
  | cons hfirst _ ih =>
    obtain ⟨hgroup, hrest⟩ := List.forall_mem_cons.mp hnonneg
    rw [List.map_cons, ih hrest, eq_of_agrees hfirst hgroup]

/-- The samples on the motors are those there are. -/
theorem mem_motorSamples (h : Convertible m config) {sample : ℕ} :
    (∃ samples ∈ config.maps.motorSamples, sample ∈ samples) ↔ sample < m.channels.length := by
  have hmem : (sample : ℤ) ∈ m.groups.flatten ↔ sample < m.channels.length := by
    rw [h.form.groups.mem_iff, List.mem_map]
    constructor
    · rintro ⟨number, hnumber, hsame⟩
      obtain rfl := Nat.cast_injective hsame
      exact List.mem_range.mp hnumber
    · exact fun hsample => ⟨sample, List.mem_range.mpr hsample, rfl⟩
  rw [← hmem, h.groups_eq, List.mem_flatten]
  constructor
  · rintro ⟨samples, hsamples, hin⟩
    exact ⟨_, List.mem_map_of_mem hsamples, List.mem_map_of_mem hin⟩
  · rintro ⟨group, hgroup, hin⟩
    obtain ⟨samples, hsamples, rfl⟩ := List.mem_map.mp hgroup
    obtain ⟨number, hnumber, hsame⟩ := List.mem_map.mp hin
    obtain rfl := Nat.cast_injective hsame
    exact ⟨samples, hsamples, hnumber⟩

/-- The terminals are the loader's, unless one has a minus sign. -/
theorem channels_eq (h : Convertible m config) (hchannels : ∀ channel ∈ m.channels, 0 ≤ channel) :
    m.channels = config.maps.sequentRtdChannels.map (Nat.cast : ℕ → ℤ) := by
  rcases h.reading.channels with hagree | ⟨count, hcount, hscript, hloader⟩
  · exact eq_of_agrees hagree hchannels
  have hcard : config.sampleCount = 8 := by
    rw [← h.accepted.channels, hloader]
    rfl
  have hlength : m.channels.length = count.toNat := by rw [hscript, List.length_map, List.length_range']
  have hsome : 0 < m.channels.length := by
    have htwo : config.maps.motorSamples.length = 2 := h.reading.groups.length_eq.symm.trans h.motors
    obtain ⟨samples, hsamples⟩ := List.exists_mem_of_length_pos (htwo ▸ Nat.two_pos)
    obtain ⟨sample, hsample⟩ := List.exists_mem_of_ne_nil samples (h.accepted.motors samples hsamples)
    exact lt_of_le_of_lt (Nat.zero_le sample) (h.mem_motorSamples.mp ⟨samples, hsamples, hsample⟩)
  have hmost : m.channels.length ≤ 8 := by
    obtain ⟨samples, hsamples, hlast⟩ := h.mem_motorSamples.mpr (Nat.sub_one_lt_of_lt hsome)
    have hpulled := h.accepted.pulled samples hsamples _ hlast
    omega
  have height : count.toNat = 8 := by omega
  rw [hscript, hloader, height]
  rfl

/-- The samples that the lines heat are the loader's. -/
theorem feedback_eq (h : Convertible m config) (hlines : m.lines ≠ []) :
    m.feedback = config.maps.temperatureChannels.map (Nat.cast : ℕ → ℤ) := by
  rcases h.reading.feedback with hagree | ⟨hscript, hloader⟩
  · exact eq_of_agrees hagree fun sample hsample => (h.form.feedback sample hsample).1
  have hlength := h.reading.lines.length_eq
  have hheaters : config.maps.outputLines.length = config.heaterCount := by
    refine h.accepted.outputLines.resolve_left fun hnone => hlines ?_
    rwa [hnone, List.length_nil, List.length_eq_zero_iff] at hlength
  rw [← h.accepted.temperatureChannels, hloader] at hheaters
  rw [hscript, hloader, hlength, hheaters]
  rfl

/-- Specimens with numbers that are not negative are the onboard's. -/
theorem exists_toSpecimen {specimens : List Specimen} (hchannels : ∀ specimen ∈ specimens, 0 ≤ specimen.channel)
    (hlines : ∀ specimen ∈ specimens, ∀ line ∈ specimen.line, 0 ≤ line) :
    ∃ configs : List SpecimenConfig, specimens = configs.map SpecimenConfig.toSpecimen := by
  induction specimens with
  | nil => exact ⟨[], rfl⟩
  | cons specimen specimens ih =>
    obtain ⟨channel, line⟩ := specimen
    obtain ⟨hchannel, hchannels⟩ := List.forall_mem_cons.mp hchannels
    obtain ⟨hline, hlines⟩ := List.forall_mem_cons.mp hlines
    obtain ⟨configs, rfl⟩ := ih hchannels hlines
    obtain ⟨terminal, rfl⟩ := Int.eq_ofNat_of_zero_le hchannel
    cases line with
    | none => exact ⟨⟨terminal, none⟩ :: configs, rfl⟩
    | some line =>
      obtain ⟨heated, rfl⟩ := Int.eq_ofNat_of_zero_le (hline line rfl)
      exact ⟨⟨terminal, some heated⟩ :: configs, rfl⟩

/-- The specimens of one motor. -/
theorem motorSpecimens_getElem? (m : ScriptMaps) (motor : ℕ) : (motorSpecimens m)[motor]? =
    (m.groups[motor]?).map fun group =>
      (orderOf group m.clicks[motor]?).map (specimenOf m.channels (m.feedback.zip m.lines)) := by
  unfold motorSpecimens
  rw [List.getElem?_map, List.getElem?_zipIdx, Option.map_map, Nat.zero_add]
  rfl

/-- The motors list the specimens that the script writes. -/
def Listed (m : ScriptMaps) (motors : List (List SpecimenConfig)) : Prop :=
  motorSpecimens m = motors.map (List.map SpecimenConfig.toSpecimen)

/-- Their terminals are those of the maps. -/
theorem terminals_perm (hform : m.ListForm) {motors : List (List SpecimenConfig)} (hlisted : Listed m motors) :
    ((terminalsOf motors.flatten).map (Nat.cast : ℕ → ℤ)).Perm m.channels := by
  have hperm := (motorSpecimens_perm hform).map Specimen.channel
  rw [allSamples_channels, hlisted, ← List.map_flatten, List.map_map] at hperm
  unfold terminalsOf
  rwa [List.map_map]

/-- Their lines are those of the maps. -/
theorem lines_perm (hform : m.ListForm) {motors : List (List SpecimenConfig)} (hlisted : Listed m motors) :
    ((linesOf motors.flatten).map (Nat.cast : ℕ → ℤ)).Perm m.lines := by
  have hperm := ((motorSpecimens_perm hform).filterMap Specimen.line).trans (allSamples_lines hform)
  rw [hlisted, ← List.map_flatten, List.filterMap_map] at hperm
  unfold linesOf
  rwa [List.map_filterMap]

/-- The specimens of a motor. -/
theorem listed_group {motors : List (List SpecimenConfig)} (hlisted : Listed m motors) {motor : ℕ}
    {group : List SpecimenConfig} (hgroup : motors[motor]? = some group) :
    ∃ samples, m.groups[motor]? = some samples ∧ group.map SpecimenConfig.toSpecimen =
      (orderOf samples m.clicks[motor]?).map (specimenOf m.channels (m.feedback.zip m.lines)) := by
  have hat : (motorSpecimens m)[motor]? = some (group.map SpecimenConfig.toSpecimen) := by
    rw [hlisted, List.getElem?_map, hgroup]
    rfl
  rw [motorSpecimens_getElem?] at hat
  obtain ⟨samples, hsamples, hsame⟩ := Option.map_eq_some_iff.mp hat
  exact ⟨samples, hsamples, hsame.symm⟩

/-- The lists of the script are the loader's when the onboard can read its specimens. -/
theorem lists_eq (h : Convertible m config) {motors : List (List SpecimenConfig)} (hlisted : Listed m motors)
    (hlines : m.lines ≠ []) :
    m.channels = config.maps.sequentRtdChannels.map (Nat.cast : ℕ → ℤ) ∧
      m.lines = config.maps.outputLines.map (Nat.cast : ℕ → ℤ) ∧
      m.feedback = config.maps.temperatureChannels.map (Nat.cast : ℕ → ℤ) := by
  have hnonneg {numbers : List ℤ} {sizes : List ℕ} (hperm : (sizes.map (Nat.cast : ℕ → ℤ)).Perm numbers) :
      ∀ number ∈ numbers, 0 ≤ number := by
    intro number hnumber
    obtain ⟨size, -, rfl⟩ := List.mem_map.mp (hperm.mem_iff.mpr hnumber)
    exact Int.natCast_nonneg size
  exact ⟨h.channels_eq (hnonneg (terminals_perm h.form hlisted)),
    eq_of_agrees h.reading.lines (hnonneg (lines_perm h.form hlisted)), h.feedback_eq hlines⟩

/-- The terminals of a motor are those of its samples, in the order of the script. -/
theorem listed_terminals (h : Convertible m config) {motors : List (List SpecimenConfig)} (hlisted : Listed m motors)
    (hlines : m.lines ≠ []) {motor : ℕ} {group : List SpecimenConfig} (hgroup : motors[motor]? = some group) :
    ∃ samples order : List ℕ, config.maps.motorSamples[motor]? = some samples ∧
      orderOf (samples.map (Nat.cast : ℕ → ℤ)) m.clicks[motor]? = order.map (Nat.cast : ℕ → ℤ) ∧
      order.Perm samples ∧ (terminalsOf group).map some = order.map (config.maps.sequentRtdChannels[·]?) := by
  obtain ⟨channels, -, -⟩ := h.lists_eq hlisted hlines
  obtain ⟨numbers, hnumbers, hsame⟩ := listed_group hlisted hgroup
  rw [h.groups_eq, List.getElem?_map] at hnumbers
  obtain ⟨samples, hsamples, rfl⟩ := Option.map_eq_some_iff.mp hnumbers
  have hperm := orderOf_perm (samples.map (Nat.cast : ℕ → ℤ)) m.clicks[motor]?
  obtain ⟨order, horder⟩ : ∃ order : List ℕ,
      orderOf (samples.map (Nat.cast : ℕ → ℤ)) m.clicks[motor]? = order.map (Nat.cast : ℕ → ℤ) := by
    refine ⟨(orderOf (samples.map (Nat.cast : ℕ → ℤ)) m.clicks[motor]?).map Int.toNat, ?_⟩
    rw [List.map_map]
    refine (List.map_congr_left fun sample hsample => ?_).trans (List.map_id _) |>.symm
    obtain ⟨number, -, rfl⟩ := List.mem_map.mp (hperm.mem_iff.mp hsample)
    rfl
  rw [horder] at hperm hsame
  have hsamplesPerm : order.Perm samples := (List.map_perm_map_iff Nat.cast_injective).mp hperm
  refine ⟨samples, order, hsamples, horder, hsamplesPerm, ?_⟩
  have hterminals : terminalsOf group = order.map (config.maps.sequentRtdChannels.getD · 0) := by
    have hchannels := congrArg (List.map Specimen.channel) hsame
    rw [List.map_map, List.map_map, List.map_map, channels] at hchannels
    refine List.map_injective_iff.mpr cast_injective ?_
    unfold terminalsOf
    rw [List.map_map, List.map_map]
    refine hchannels.trans (List.map_congr_left fun sample _ => ?_)
    exact List.getD_map _ _ (Nat.cast : ℕ → ℤ)
  rw [hterminals, List.map_map]
  refine List.map_congr_left fun sample hsample => ?_
  have hin : sample < config.maps.sequentRtdChannels.length := by
    rw [h.accepted.channels]
    exact h.accepted.pulled samples (List.mem_of_getElem? hsamples) sample (hsamplesPerm.mem_iff.mp hsample)
  rw [Function.comp_apply, List.getD_eq_getElem?_getD, List.getElem?_eq_getElem hin]
  rfl

/-- There are as many motors as groups. -/
theorem motors_length (h : Convertible m config) {motors : List (List SpecimenConfig)} (hlisted : Listed m motors) :
    motors.length = config.maps.motorSamples.length := by
  have hlength := congrArg List.length hlisted
  rw [motorSpecimens, List.length_map, List.length_zipIdx, List.length_map] at hlength
  exact hlength.symm.trans h.reading.groups.length_eq

/-- The motors pull the same terminals. -/
theorem pulls_iff (h : Convertible m config) {motors : List (List SpecimenConfig)} (hlisted : Listed m motors)
    (hlines : m.lines ≠ []) {motor terminal : ℕ} :
    (fillMaps motors).Pulls motor terminal ↔ config.maps.Pulls motor terminal := by
  have hmem {samples order : List ℕ} {group : List SpecimenConfig} (hperm : order.Perm samples)
      (hterminals : (terminalsOf group).map some = order.map (config.maps.sequentRtdChannels[·]?)) :
      terminal ∈ terminalsOf group ↔ ∃ sample ∈ samples, config.maps.sequentRtdChannels[sample]? = some terminal := by
    have hsome : some terminal ∈ (terminalsOf group).map some ↔ terminal ∈ terminalsOf group := by simp
    rw [← hsome, hterminals, List.mem_map]
    exact exists_congr fun sample => and_congr_left fun _ => hperm.mem_iff
  rw [fillMaps_pulls]
  constructor
  · rintro ⟨group, hgroup, hterminal⟩
    obtain ⟨samples, order, hsamples, -, hperm, hterminals⟩ := h.listed_terminals hlisted hlines hgroup
    obtain ⟨sample, hsample, hat⟩ := (hmem hperm hterminals).mp hterminal
    exact ⟨samples, sample, hsamples, hsample, hat⟩
  · rintro ⟨samples, sample, hsamples, hsample, hat⟩
    have hmotor : motor < motors.length := by
      rw [h.motors_length hlisted]
      exact (List.getElem?_eq_some_iff.mp hsamples).1
    have hgroup : motors[motor]? = some motors[motor] := List.getElem?_eq_getElem hmotor
    obtain ⟨others, order, hothers, -, hperm, hterminals⟩ := h.listed_terminals hlisted hlines hgroup
    obtain rfl := Option.some.inj (hothers.symm.trans hsamples)
    exact ⟨_, hgroup, (hmem hperm hterminals).mpr ⟨sample, hsample, hat⟩⟩

/-- The specimen of a terminal is known by its line, too. -/
theorem toSpecimen_injective : Function.Injective SpecimenConfig.toSpecimen := by
  rintro ⟨terminal, line⟩ ⟨terminal', line'⟩ hsame
  obtain ⟨hterminal, hline⟩ := Specimen.mk.inj hsame
  have hline : line = line' := Option.map_injective cast_injective hline
  have hterminal : terminal = terminal' := Nat.cast_injective hterminal
  rw [hline, hterminal]

/-- The lines heat the same terminals' specimens. -/
theorem heats_iff (h : Convertible m config) {motors : List (List SpecimenConfig)} (hlisted : Listed m motors)
    (hlines : m.lines ≠ []) {line terminal : ℕ} :
    (fillMaps motors).Heats line terminal ↔ config.maps.Heats line terminal := by
  obtain ⟨hchannels, hline, hfeedback⟩ := h.lists_eq hlisted hlines
  have hspecimen : (⟨terminal, some line⟩ : SpecimenConfig) ∈ motors.flatten ↔
      (⟨terminal, some (line : ℤ)⟩ : Specimen) ∈
        (allSamples m).map (specimenOf m.channels (m.feedback.zip m.lines)) := by
    have hperm := motorSpecimens_perm h.form
    rw [hlisted, ← List.map_flatten] at hperm
    rw [← hperm.mem_iff]
    exact (List.mem_map_of_injective toSpecimen_injective).symm
  have hknown (sample : ℕ) : ((sample : ℤ), (line : ℤ)) ∈ m.feedback.zip m.lines ↔
      (sample, line) ∈ config.maps.temperatureChannels.zip config.maps.outputLines := by
    rw [hline, hfeedback, List.zip_map]
    have hpair : Function.Injective (Prod.map (Nat.cast : ℕ → ℤ) (Nat.cast : ℕ → ℤ)) :=
      Nat.cast_injective.prodMap Nat.cast_injective
    have hentry : ((sample : ℤ), (line : ℤ)) = Prod.map (Nat.cast : ℕ → ℤ) (Nat.cast : ℕ → ℤ) (sample, line) := rfl
    rw [hentry]
    exact List.mem_map_of_injective hpair
  have hchannel {sample : ℕ} (hsample : sample < m.channels.length) :
      m.channels.getD sample 0 = terminal ↔ config.maps.sequentRtdChannels[sample]? = some terminal := by
    rw [hchannels, List.length_map] at hsample
    have hat : (config.maps.sequentRtdChannels.map (Nat.cast : ℕ → ℤ)).getD sample 0 =
      ((config.maps.sequentRtdChannels.getD sample 0 : ℕ) : ℤ) := List.getD_map _ _ (Nat.cast : ℕ → ℤ)
    rw [hchannels, hat, List.getD_eq_getElem?_getD, List.getElem?_eq_getElem hsample, Option.getD_some,
      Option.some_inj, Nat.cast_inj]
  rw [fillMaps_heats, hspecimen, List.mem_map]
  constructor
  · rintro ⟨number, hnumber, hsame⟩
    obtain ⟨sample, hsample, rfl⟩ := List.mem_map.mp hnumber
    have hsample := List.mem_range.mp hsample
    obtain ⟨hterminal, hentry⟩ := Specimen.mk.inj hsame
    have hmem := (hknown sample).mp ((find?_zip h.form.heated h.form.heaters).mp hentry)
    obtain ⟨heater, hheater⟩ := List.mem_iff_getElem?.mp hmem
    obtain ⟨hheated, hat⟩ := List.getElem?_zip_eq_some.mp hheater
    exact ⟨heater, sample, hat, hheated, (hchannel hsample).mp hterminal⟩
  · rintro ⟨heater, sample, hat, hheated, hterminal⟩
    have hzip : (config.maps.temperatureChannels.zip config.maps.outputLines)[heater]? = some (sample, line) :=
      List.getElem?_zip_eq_some.mpr ⟨hheated, hat⟩
    have hsample : sample < m.channels.length := by
      rw [hchannels, List.length_map]
      exact (List.getElem?_eq_some_iff.mp hterminal).1
    refine ⟨(sample : ℤ), List.mem_map_of_mem (List.mem_range.mpr hsample), ?_⟩
    have hentry := (find?_zip h.form.heated h.form.heaters).mpr ((hknown sample).mpr (List.mem_of_getElem? hzip))
    have hfirst := (hchannel hsample).mpr hterminal
    exact Specimen.mk.injEq _ _ _ _ ▸ ⟨hfirst, hentry⟩

/-- A click reads the terminal it read before exactly when its sample comes first in its motor's. -/
theorem reads_motor (h : Convertible m config) {motors : List (List SpecimenConfig)} (hlisted : Listed m motors)
    (hlines : m.lines ≠ []) (hsome : ∀ group ∈ motors, group ≠ []) {motor click : ℕ} {samples : List ℤ}
    (hsamples : m.groups[motor]? = some samples) (hclick : config.maps.max31865SampleIndices[motor]? = some click) :
    (∀ terminal, (fillMaps motors).Reads motor terminal ↔ config.maps.Reads motor terminal) ↔
      (click : ℤ) ∈ samples ∧ (m.clicks[motor]? = some (click : ℤ) ∨ ∀ sample ∈ samples, (click : ℤ) ≤ sample) := by
  have hmotor : motor < motors.length := by
    rw [h.motors_length hlisted, ← h.reading.groups.length_eq]
    exact (List.getElem?_eq_some_iff.mp hsamples).1
  have hgroup : motors[motor]? = some motors[motor] := List.getElem?_eq_getElem hmotor
  obtain ⟨numbers, order, hnumbers, horder, -, hterminals⟩ := h.listed_terminals hlisted hlines hgroup
  rw [h.groups_eq, List.getElem?_map, hnumbers] at hsamples
  obtain rfl := Option.some.inj hsamples
  obtain ⟨number, hnumber, hagree⟩ : ∃ number, m.clicks[motor]? = some number ∧ Agrees number click := by
    obtain ⟨hlt, hat⟩ := List.getElem?_eq_some_iff.mp hclick
    have hlt' : motor < m.clicks.length := by rwa [h.reading.clicks.length_eq]
    refine ⟨m.clicks[motor], List.getElem?_eq_getElem hlt', ?_⟩
    rw [← hat]
    exact h.reading.clicks.get hlt' hlt
  have hin : click < config.maps.sequentRtdChannels.length := by
    rw [h.accepted.channels]
    exact h.accepted.clicked click (List.mem_of_getElem? hclick)
  rw [hnumber] at horder ⊢
  rw [← orderOf_head_iff hagree, horder, List.head?_map]
  have hnew (terminal : ℕ) : (fillMaps motors).Reads motor terminal ↔
      ∃ first, order.head? = some first ∧ config.maps.sequentRtdChannels[first]? = some terminal := by
    have hfirst := congrArg List.head? hterminals
    rw [List.head?_map, List.head?_map, List.head?_eq_getElem?] at hfirst
    rw [fillMaps_reads hsome]
    constructor
    · rintro ⟨group, hsame, hat⟩
      obtain rfl := Option.some.inj (hgroup.symm.trans hsame)
      rw [hat] at hfirst
      exact Option.map_eq_some_iff.mp hfirst.symm
    · rintro ⟨first, hhead, hat⟩
      refine ⟨_, hgroup, ?_⟩
      rw [hhead, Option.map_some, hat] at hfirst
      obtain ⟨value, hvalue, hsame⟩ := Option.map_eq_some_iff.mp hfirst
      rw [hvalue, Option.some.inj hsame]
  have hold (terminal : ℕ) : config.maps.Reads motor terminal ↔
      config.maps.sequentRtdChannels[click]? = some terminal := by
    refine ⟨fun ⟨sample, hsample, hat⟩ => ?_, fun hat => ⟨click, hclick, hat⟩⟩
    rwa [← Option.some.inj (hsample.symm.trans hclick)]
  constructor
  · intro hsame
    obtain ⟨first, hhead, hat⟩ := (hnew _).mp ((hsame _).mpr ((hold _).mpr (List.getElem?_eq_getElem hin)))
    have hfirst : first = click := (List.getElem?_inj hin h.accepted.channelsApart).mp
      ((List.getElem?_eq_getElem hin).trans hat.symm) |>.symm
    rw [hhead, hfirst]
    rfl
  · intro hhead terminal
    obtain ⟨first, hfirst, hsame⟩ := Option.map_eq_some_iff.mp hhead
    obtain rfl := Nat.cast_injective hsame
    rw [hnew, hold, hfirst]
    exact ⟨fun ⟨other, hother, hat⟩ => Option.some.inj hother ▸ hat, fun hat => ⟨_, rfl, hat⟩⟩

/-- The wiring is the old one exactly when each click's sample comes first in its motor's. -/
theorem sameWiring_iff (h : Convertible m config) {motors : List (List SpecimenConfig)} (hlisted : Listed m motors)
    (hlines : m.lines ≠ []) (hsome : ∀ group ∈ motors, group ≠ []) :
    (fillMaps motors).SameWiring config.maps ↔ ∀ (motor : ℕ) samples click, m.groups[motor]? = some samples →
      config.maps.max31865SampleIndices[motor]? = some click →
      (click : ℤ) ∈ samples ∧ (m.clicks[motor]? = some (click : ℤ) ∨ ∀ sample ∈ samples, (click : ℤ) ≤ sample) := by
  constructor
  · intro hsame motor samples click hsamples hclick
    exact (h.reads_motor hlisted hlines hsome hsamples hclick).mp (hsame.reads motor)
  · intro hclicks
    refine ⟨fun motor terminal => h.pulls_iff hlisted hlines, fun line terminal => h.heats_iff hlisted hlines, ?_⟩
    intro motor terminal
    by_cases hmotor : motor < 2
    · have hgroups : motor < m.groups.length := h.motors ▸ hmotor
      have hclicked : motor < config.maps.max31865SampleIndices.length := h.accepted.clicks ▸ hmotor
      have hgroup : m.groups[motor]? = some m.groups[motor] := List.getElem?_eq_getElem hgroups
      have hclick : config.maps.max31865SampleIndices[motor]? = some config.maps.max31865SampleIndices[motor] :=
        List.getElem?_eq_getElem hclicked
      exact (h.reads_motor hlisted hlines hsome hgroup hclick).mpr (hclicks motor _ _ hgroup hclick) terminal
    · have hlength : motors.length = 2 := by
        rw [h.motors_length hlisted, ← h.reading.groups.length_eq, h.motors]
      have hnone : motors[motor]? = none := List.getElem?_eq_none (by omega)
      have hnoClick : config.maps.max31865SampleIndices[motor]? = none := by
        have htwo := h.accepted.clicks
        exact List.getElem?_eq_none (by omega)
      rw [fillMaps_reads hsome, hnone]
      unfold LayoutMaps.Reads
      rw [hnoClick]
      exact ⟨fun ⟨_, hgroup, _⟩ => (nomatch hgroup), fun ⟨_, hclick, _⟩ => (nomatch hclick)⟩

/-- Specimens that the onboard reads are carried when they say the old wiring. -/
theorem carried_of_sameWiring (h : Convertible m config) {motors : List (List SpecimenConfig)}
    (hlisted : Listed m motors) (hsmall : ∀ specimen ∈ motors.flatten, specimen.Small)
    (hproper : Proper motors config.sampleCount config.heaterCount)
    (hsame : (fillMaps motors).SameWiring config.maps) : m.Carried config := by
  have hperm := lines_perm h.form hlisted
  have hlines : m.lines ≠ [] := by
    intro hnil
    have hlength := hperm.length_eq
    rw [hnil, List.length_map, hproper.heaters] at hlength
    have hpos := h.accepted.heaterCount
    exact absurd hlength hpos.ne'
  refine ⟨hlines, fun line hline => ?_, fun channel hchannel => ?_,
    (h.sameWiring_iff hlisted hlines hproper.listed).mp hsame⟩
  · obtain ⟨size, hsize, rfl⟩ := List.mem_map.mp (hperm.mem_iff.mpr hline)
    obtain ⟨specimen, hspecimen, hheated⟩ := List.mem_filterMap.mp hsize
    have hbound := (hsmall specimen hspecimen).2 size hheated
    omega
  · obtain ⟨size, -, rfl⟩ := List.mem_map.mp ((terminals_perm h.form hlisted).mem_iff.mpr hchannel)
    exact Int.natCast_nonneg size

/-- The onboard has specimens for numbers that are not negative. -/
theorem exists_listed (hform : m.ListForm) (hchannels : ∀ channel ∈ m.channels, 0 ≤ channel)
    (hlines : ∀ line ∈ m.lines, 0 ≤ line) : ∃ motors, Listed m motors := by
  have hperm := motorSpecimens_perm hform
  have hall : ∀ group ∈ motorSpecimens m, ∃ configs : List SpecimenConfig,
      group = configs.map SpecimenConfig.toSpecimen := by
    intro group hgroup
    have hmem {specimen : Specimen} (hspecimen : specimen ∈ group) :
        specimen ∈ (allSamples m).map (specimenOf m.channels (m.feedback.zip m.lines)) :=
      hperm.mem_iff.mp (List.mem_flatten.mpr ⟨group, hgroup, hspecimen⟩)
    refine exists_toSpecimen (fun specimen hspecimen => hchannels _ ?_) fun specimen hspecimen line hline =>
      hlines _ ?_
    · rw [← allSamples_channels m (m.feedback.zip m.lines)]
      exact List.mem_map_of_mem (hmem hspecimen)
    · exact (allSamples_lines hform).mem_iff.mp (List.mem_filterMap.mpr ⟨specimen, hmem hspecimen, hline⟩)
  unfold Listed
  generalize motorSpecimens m = groups at hall
  clear hperm
  induction groups with
  | nil => exact ⟨[], rfl⟩
  | cons group groups ih =>
    obtain ⟨⟨configs, rfl⟩, hrest⟩ := List.forall_mem_cons.mp hall
    obtain ⟨motors, rfl⟩ := ih hrest
    exact ⟨configs :: motors, rfl⟩

/-- What is carried is read by the onboard. -/
theorem proper_of_carried (h : Convertible m config) (hcarried : m.Carried config)
    {motors : List (List SpecimenConfig)} (hlisted : Listed m motors) :
    (∀ specimen ∈ motors.flatten, specimen.Small) ∧ Proper motors config.sampleCount config.heaterCount := by
  obtain ⟨hchannels, hline, -⟩ := h.lists_eq hlisted hcarried.lines
  have hterminals := terminals_perm h.form hlisted
  have hheated := lines_perm h.form hlisted
  rw [hchannels] at hterminals
  rw [hline] at hheated
  have hterminals := (List.map_perm_map_iff cast_injective).mp hterminals
  have hheated := (List.map_perm_map_iff cast_injective).mp hheated
  have honCard : ∀ specimen ∈ motors.flatten, 1 ≤ specimen.rtdChannel ∧ specimen.rtdChannel ≤ 8 :=
    fun specimen hspecimen =>
      h.accepted.onCard _ (hterminals.mem_iff.mp (List.mem_map_of_mem hspecimen))
  have hlines : config.maps.outputLines ≠ [] := by
    have hne := hcarried.lines
    rw [hline] at hne
    exact fun hnil => hne (by rw [hnil]; rfl)
  refine ⟨fun specimen hspecimen => ⟨?_, fun line hspecimenLine => ?_⟩, ?_, honCard, ?_, ?_, ?_, ?_⟩
  · have hrange := honCard specimen hspecimen
    omega
  · have hmem := hheated.mem_iff.mp (List.mem_filterMap.mpr ⟨specimen, hspecimen, hspecimenLine⟩)
    have hbound := hcarried.line line (hline ▸ List.mem_map_of_mem hmem)
    omega
  · intro group hgroup hnil
    obtain ⟨motor, hmotor⟩ := List.mem_iff_getElem?.mp hgroup
    obtain ⟨samples, order, hsamples, -, hperm, hsame⟩ := h.listed_terminals hlisted hcarried.lines hmotor
    refine h.accepted.motors samples (List.mem_of_getElem? hsamples) ?_
    rw [hnil] at hsame
    have horder : order = [] := List.map_eq_nil_iff.mp hsame.symm
    rw [horder] at hperm
    exact hperm.symm.eq_nil
  · exact hterminals.nodup_iff.mpr h.accepted.channelsApart
  · exact hheated.nodup_iff.mpr (List.nodup_append.mp h.accepted.gpio).2.1
  · rw [← h.accepted.channels, ← hterminals.length_eq]
    exact List.length_map _ |>.symm
  · rw [hheated.length_eq]
    exact h.accepted.outputLines.resolve_left hlines

/-- The motors' specimens are two lists, neither empty. -/
theorem motorSpecimens_eq (h : Convertible m config) :
    ∃ first second, motorSpecimens m = [first, second] ∧ first ≠ [] ∧ second ≠ [] := by
  have hsome : ∀ group ∈ motorSpecimens m, group ≠ [] := by
    intro group hgroup hnil
    obtain ⟨motor, hmotor⟩ := List.mem_iff_getElem?.mp hgroup
    rw [motorSpecimens_getElem?, h.groups_eq, List.getElem?_map, Option.map_map] at hmotor
    obtain ⟨samples, hsamples, hsame⟩ := Option.map_eq_some_iff.mp hmotor
    rw [hnil] at hsame
    have hperm := orderOf_perm (samples.map (Nat.cast : ℕ → ℤ)) m.clicks[motor]?
    rw [List.map_eq_nil_iff.mp hsame] at hperm
    exact h.accepted.motors samples (List.mem_of_getElem? hsamples) (List.map_eq_nil_iff.mp hperm.symm.eq_nil)
  have hlength : (motorSpecimens m).length = 2 := by
    rw [motorSpecimens, List.length_map, List.length_zipIdx, h.motors]
  obtain ⟨first, second, htwo⟩ := List.length_eq_two.mp hlength
  rw [htwo] at hsome
  exact ⟨first, second, htwo, hsome first (by simp), hsome second (by simp)⟩

/-- The onboard reads the file that is made exactly when the specimens are its own, small and proper. -/
theorem readLayout_converted (h : Convertible m config) {values : Values} {derived : LayoutConfig}
    (hread : readLayout values = some config) (hlegacy : values.sets specimenKeys = false) :
    readLayout (carryOver values (convertedValues ⟨motorSpecimens m⟩)) = some derived ↔
      ∃ motors, Listed m motors ∧ (∀ specimen ∈ motors.flatten, specimen.Small) ∧
        Proper motors config.sampleCount config.heaterCount ∧
        derived = ⟨config.sampleCount, config.heaterCount, fillMaps motors⟩ := by
  obtain ⟨first, second, htwo, hfirst, hsecond⟩ := h.motorSpecimens_eq
  have hnone : ∀ key ∈ specimenKeys, values key = none := by
    intro key hkey
    have hunset := List.any_eq_false.mp hlegacy key hkey
    simpa using hunset
  have hat0 : carryOver values (convertedValues ⟨motorSpecimens m⟩) "motor0.specimens" =
      some (formatSpecimens first) := by
    unfold carryOver convertedValues
    rw [hnone "motor0.specimens" (by decide), htwo]
    rfl
  have hat1 : carryOver values (convertedValues ⟨motorSpecimens m⟩) "motor1.specimens" =
      some (formatSpecimens second) := by
    unfold carryOver convertedValues
    rw [hnone "motor1.specimens" (by decide), htwo]
    rfl
  rw [readLayout_carryOver hread hlegacy rfl rfl hat0 hat1]
  unfold Listed
  rw [htwo]
  constructor
  · rintro ⟨one, two, hone, htwo', hproper, rfl⟩
    obtain ⟨rfl, hsmall⟩ := (parseSpecimenList_format hfirst).mp hone
    obtain ⟨rfl, hsmall'⟩ := (parseSpecimenList_format hsecond).mp htwo'
    refine ⟨[one, two], rfl, fun specimen hspecimen => ?_, hproper, rfl⟩
    rw [List.flatten_cons, List.flatten_cons, List.flatten_nil, List.append_nil] at hspecimen
    exact (List.mem_append.mp hspecimen).elim (hsmall specimen) (hsmall' specimen)
  · rintro ⟨motors, hlisted, hsmall, hproper, rfl⟩
    obtain ⟨one, rest, rfl, rfl, hrest⟩ := List.map_eq_cons_iff.mp hlisted.symm
    obtain ⟨two, others, rfl, rfl, hnil⟩ := List.map_eq_cons_iff.mp hrest
    obtain rfl := List.map_eq_nil_iff.mp hnil
    refine ⟨one, two, (parseSpecimenList_format hfirst).mpr ⟨rfl, fun specimen hspecimen => ?_⟩,
      (parseSpecimenList_format hsecond).mpr ⟨rfl, fun specimen hspecimen => ?_⟩, hproper, rfl⟩
    · exact hsmall specimen (List.mem_flatten.mpr ⟨one, by simp, hspecimen⟩)
    · exact hsmall specimen (List.mem_flatten.mpr ⟨two, by simp, hspecimen⟩)

/-- The file that is made says the old wiring exactly when it is carried over. -/
theorem migrates_maps_iff (h : Convertible m config) {values : Values} (hread : readLayout values = some config)
    (hlegacy : values.sets specimenKeys = false) :
    (∃ derived, readLayout (carryOver values (convertedValues ⟨motorSpecimens m⟩)) = some derived ∧
      derived.maps.SameWiring config.maps) ↔ m.Carried config := by
  constructor
  · rintro ⟨derived, hderived, hsame⟩
    obtain ⟨motors, hlisted, hsmall, hproper, rfl⟩ := (h.readLayout_converted hread hlegacy).mp hderived
    exact h.carried_of_sameWiring hlisted hsmall hproper hsame
  · intro hcarried
    obtain ⟨motors, hlisted⟩ := exists_listed h.form hcarried.channel fun line hline => (hcarried.line line hline).1
    obtain ⟨hsmall, hproper⟩ := h.proper_of_carried hcarried hlisted
    refine ⟨_, (h.readLayout_converted hread hlegacy).mpr ⟨motors, hlisted, hsmall, hproper, rfl⟩, ?_⟩
    exact (h.sameWiring_iff hlisted hcarried.lines hproper.listed).mpr hcarried.click

end Convertible

/-- Accepted files without layout keys have the example's wiring. -/
theorem migrates_default {values : Values} {config : LayoutConfig} (hload : loadLayout values = some config)
    (hlegacy : values.sets specimenKeys = false) (hdefault : values.sets layoutKeys = false) :
    Migrates values config := by
  obtain ⟨hread, haccepted⟩ := loadLayout_eq_some.mp hload
  obtain ⟨-, -, hlines, htemperature, hchannels, hclicks, samples0, samples1, h0, h1, hsamples⟩ :=
    readLayout_legacy hread hlegacy
  have hnone {keys : List String} (hunset : values.sets keys = false) : ∀ key ∈ keys, values key = none := by
    intro key hkey
    have hno := List.any_eq_false.mp hunset key hkey
    simpa using hno
  have hlayout := hnone hdefault
  have hspecimens := hnone hlegacy
  unfold Values.readOr at hlines htemperature hchannels hclicks h0 h1
  rw [hlayout _ (by decide)] at hlines htemperature hchannels hclicks h0 h1
  have hmaps : config.maps = ⟨[1, 2, 3, 4, 5, 6, 7, 8], [0, 4], [19, 13, 6, 5, 24, 23], [0, 1, 2, 3, 4, 5],
      [[0, 1, 2, 3], [4, 5, 6, 7]]⟩ := by
    have hmotors : config.maps.motorSamples = [[0, 1, 2, 3], [4, 5, 6, 7]] := by
      rw [hsamples, ← Option.some.inj h0, ← Option.some.inj h1]
    exact LayoutMaps.mk.injEq .. ▸ ⟨(Option.some.inj hchannels).symm, (Option.some.inj hclicks).symm,
      (Option.some.inj hlines).symm, (Option.some.inj htemperature).symm, hmotors⟩
  have hsampleCount : config.sampleCount = 8 := by
    rw [← haccepted.channels, hmaps]
    rfl
  have hheaterCount : config.heaterCount = 6 := by
    rw [← haccepted.temperatureChannels, hmaps]
    rfl
  intro candidate hcandidate
  unfold candidateFromExisting at hcandidate
  rw [hdefault, Bool.and_false, if_neg Bool.false_ne_true] at hcandidate
  obtain rfl := Option.some.inj hcandidate
  have hat0 : carryOver values (fun _ => none) "motor0.specimens" = some "ch1:19,ch2:13,ch3:6,ch4:5".toList := by
    unfold carryOver
    rw [hspecimens _ (by decide)]
    rfl
  have hat1 : carryOver values (fun _ => none) "motor1.specimens" = some "ch5:24,ch6:23,ch7,ch8".toList := by
    unfold carryOver
    rw [hspecimens _ (by decide)]
    rfl
  have hone : parseSpecimenList "ch1:19,ch2:13,ch3:6,ch4:5".toList =
      some [⟨1, some 19⟩, ⟨2, some 13⟩, ⟨3, some 6⟩, ⟨4, some 5⟩] := by decide +kernel
  have htwo : parseSpecimenList "ch5:24,ch6:23,ch7,ch8".toList =
      some [⟨5, some 24⟩, ⟨6, some 23⟩, ⟨7, none⟩, ⟨8, none⟩] := by decide +kernel
  have hproper : Proper [[⟨1, some 19⟩, ⟨2, some 13⟩, ⟨3, some 6⟩, ⟨4, some 5⟩],
      [⟨5, some 24⟩, ⟨6, some 23⟩, ⟨7, none⟩, ⟨8, none⟩]] config.sampleCount config.heaterCount := by
    rw [hsampleCount, hheaterCount]
    exact ⟨by decide, by decide, by decide, by decide, by decide, by decide⟩
  refine ⟨_, (readLayout_carryOver hread hlegacy rfl rfl hat0 hat1).mpr ⟨_, _, hone, htwo, hproper, rfl⟩, ?_⟩
  rw [hmaps]
  exact ⟨fun _ _ => Iff.rfl, fun _ _ => Iff.rfl, fun _ _ => Iff.rfl⟩

/-- Of maps, the script makes a file exactly when they are in list form. -/
theorem candidateFromExisting_maps {values candidate : Values} (hlegacy : values.sets specimenKeys = false)
    (hset : values.sets layoutKeys = true) : candidateFromExisting values = some candidate ↔
      ∃ m, readMaps values = some m ∧ m.ListForm ∧ candidate = carryOver values (convertedValues ⟨motorSpecimens m⟩) := by
  unfold candidateFromExisting layoutFromValues
  rw [hlegacy, hset, Bool.not_false, Bool.and_true, if_pos rfl, if_neg Bool.false_ne_true, Option.map_eq_some_iff]
  constructor
  · rintro ⟨layout, hlayout, rfl⟩
    obtain ⟨m, hm, hmaps⟩ := Option.bind_eq_some_iff.mp hlayout
    obtain ⟨hform, rfl⟩ := layoutOfMaps_eq_some.mp hmaps
    exact ⟨m, hm, hform, rfl⟩
  · rintro ⟨m, hm, hform, rfl⟩
    exact ⟨_, Option.bind_eq_some_iff.mpr ⟨m, hm, layoutOfMaps_eq_some.mpr ⟨hform, rfl⟩⟩, rfl⟩

/-- The script reads two groups. -/
theorem readMaps_groups {values : Values} {m : ScriptMaps} (hm : readMaps values = some m) : m.groups.length = 2 := by
  unfold readMaps at hm
  obtain ⟨count, -, hm⟩ := Option.bind_eq_some_iff.mp hm
  obtain ⟨lines, -, hm⟩ := Option.bind_eq_some_iff.mp hm
  obtain ⟨feedback, -, hm⟩ := Option.bind_eq_some_iff.mp hm
  obtain ⟨channels, -, hm⟩ := Option.bind_eq_some_iff.mp hm
  obtain ⟨group0, -, hm⟩ := Option.bind_eq_some_iff.mp hm
  obtain ⟨group1, -, hm⟩ := Option.bind_eq_some_iff.mp hm
  obtain ⟨clicks, -, hm⟩ := Option.bind_eq_some_iff.mp hm
  obtain rfl := Option.some.inj hm
  rfl

/-- Migration keeps the wiring of a file exactly when the file sets none of the maps, or the script refuses
them, or they are carried: their numbers can be written, and each click's sample comes first in its motor's. -/
theorem migrates_iff {values : Values} {config : LayoutConfig} (hload : loadLayout values = some config)
    (hlegacy : values.sets specimenKeys = false) : Migrates values config ↔
      values.sets layoutKeys = false ∨
        ∀ m, readMaps values = some m → m.ListForm → m.Carried config := by
  cases hset : values.sets layoutKeys with
  | false => exact iff_of_true (migrates_default hload hlegacy hset) (Or.inl rfl)
  | true =>
    obtain ⟨hread, haccepted⟩ := loadLayout_eq_some.mp hload
    have hconvertible {m : ScriptMaps} (hm : readMaps values = some m) (hform : m.ListForm) : Convertible m config :=
      ⟨reading_of_read hread hlegacy hm, haccepted, hform, readMaps_groups hm⟩
    unfold Migrates
    constructor
    · intro h
      refine Or.inr fun m hm hform => ?_
      exact ((hconvertible hm hform).migrates_maps_iff hread hlegacy).mp
        (h _ ((candidateFromExisting_maps hlegacy hset).mpr ⟨m, hm, hform, rfl⟩))
    · intro h candidate hcandidate
      obtain ⟨m, hm, hform, rfl⟩ := (candidateFromExisting_maps hlegacy hset).mp hcandidate
      exact ((hconvertible hm hform).migrates_maps_iff hread hlegacy).mpr
        (h.resolve_left Bool.true_eq_false.mp m hm hform)

/-- A file that sets only the lines, in another order. -/
def turnedLines : Values := fun key => if key = "heater.output_lines" then some "24,23,19,13,6,5".toList else none

/-- It is migrated with its wiring. -/
theorem migrates_turnedLines : Migrates turnedLines
    ⟨8, 6, [1, 2, 3, 4, 5, 6, 7, 8], [0, 4], [24, 23, 19, 13, 6, 5], [0, 1, 2, 3, 4, 5], [[0, 1, 2, 3], [4, 5, 6, 7]]⟩ := by
  refine (migrates_iff (by decide +kernel) (by decide +kernel)).mpr (Or.inr fun m hm _ => ?_)
  have hmaps : readMaps turnedLines = some ⟨[24, 23, 19, 13, 6, 5], [0, 1, 2, 3, 4, 5], [1, 2, 3, 4, 5, 6, 7, 8],
      [[0, 1, 2, 3], [4, 5, 6, 7]], [0, 4]⟩ := by decide +kernel
  obtain rfl := Option.some.inj (hm.symm.trans hmaps)
  refine ⟨by decide, by decide, by decide, fun motor samples click hsamples hclick => ?_⟩
  match motor with
  | 0 =>
    obtain rfl := Option.some.inj hsamples
    obtain rfl := Option.some.inj hclick
    decide
  | 1 =>
    obtain rfl := Option.some.inj hsamples
    obtain rfl := Option.some.inj hclick
    decide

/-- A file that sets only the clicks' samples, the second motor's first. -/
def swappedClicks : Values := fun key =>
  if key = "sensor.max31865_sample_indices" then some "4,0".toList else none

/-- The loader accepts a file that migration rewires. -/
theorem not_migrates_swappedClicks : ∃ config, loadLayout swappedClicks = some config ∧
    swappedClicks.sets specimenKeys = false ∧ ¬ Migrates swappedClicks config := by
  have hload : loadLayout swappedClicks = some ⟨8, 6, [1, 2, 3, 4, 5, 6, 7, 8], [4, 0], [19, 13, 6, 5, 24, 23],
      [0, 1, 2, 3, 4, 5], [[0, 1, 2, 3], [4, 5, 6, 7]]⟩ := by decide +kernel
  have hlegacy : swappedClicks.sets specimenKeys = false := by decide +kernel
  have hset : swappedClicks.sets layoutKeys = true := by decide +kernel
  have hmaps : readMaps swappedClicks = some ⟨[19, 13, 6, 5, 24, 23], [0, 1, 2, 3, 4, 5], [1, 2, 3, 4, 5, 6, 7, 8],
      [[0, 1, 2, 3], [4, 5, 6, 7]], [4, 0]⟩ := by decide +kernel
  have hform : ScriptMaps.ListForm ⟨[19, 13, 6, 5, 24, 23], [0, 1, 2, 3, 4, 5], [1, 2, 3, 4, 5, 6, 7, 8],
      [[0, 1, 2, 3], [4, 5, 6, 7]], [4, 0]⟩ := ⟨by decide, by decide, by decide, by decide⟩
  refine ⟨_, hload, hlegacy, fun hmigrates => ?_⟩
  obtain ⟨hread, haccepted⟩ := loadLayout_eq_some.mp hload
  have hconvertible : Convertible _ _ := ⟨reading_of_read hread hlegacy hmaps, haccepted, hform, rfl⟩
  have hcarried := (hconvertible.migrates_maps_iff hread hlegacy).mp
    (hmigrates _ ((candidateFromExisting_maps hlegacy hset).mpr ⟨_, hmaps, hform, rfl⟩))
  exact absurd (hcarried.click 0 _ 4 rfl rfl).1 (by decide)

end Coatheal.Wiring
