import Coatheal.Wiring.Migration

/-!
# What is carried over

The specimens that the script writes are read back by the onboard when their numbers are small and not
negative. The maps derived from them say the wiring of the old ones, but for the clicks: a click reads the
first specimen of its own motor, whatever it read before.
-/

namespace Coatheal.Wiring

open Library
open Library.Text (trim getlines cut showInt showNat)

/-- A printed number is read back as digits when it has at most four. -/
theorem parseDigits_showInt (number : ℤ) :
    parseDigits (showInt number) = if 0 ≤ number ∧ number < 10000 then some number.toNat else none := by
  unfold parseDigits showInt
  by_cases hneg : number < 0
  · have hwhole : Text.wholeNat ('-' :: showNat number.natAbs) = none := by
      unfold Text.wholeNat
      exact if_neg fun h => absurd (List.all_eq_true.mp h.2 '-' List.mem_cons_self) (by decide)
    rw [if_pos hneg, hwhole, ite_self, if_neg (by omega)]
  · have hlength : (showNat number.natAbs).length ≤ 4 ↔ number.natAbs < 10 ^ 4 :=
      Nat.length_toDigits_le_iff (by omega) (by omega)
    rw [if_neg hneg, Text.wholeNat_showNat]
    by_cases hshort : number.natAbs < 10 ^ 4
    · rw [if_neg (not_lt.mpr (hlength.mpr hshort)), if_pos (by omega)]
      congr 1
      omega
    · rw [if_pos (not_le.mp (mt hlength.mp hshort)), if_neg (by omega)]

/-- A printed number has digits and at most a sign. -/
theorem showInt_plain {number : ℤ} {c : Char} (h : c ∈ showInt number) :
    Text.isSpace c = false ∧ c.toLower = c ∧ c ≠ ':' ∧ c ≠ ',' ∧ c ≠ 'b' := by
  rcases Text.showInt_chars h with hdigit | rfl
  · have hcase := onboard.digit_caseless c (Or.inl hdigit)
    refine ⟨(Text.isDigit_plain hdigit).1, hcase, ?_, ?_, ?_⟩
    all_goals
      rintro rfl
      exact absurd hdigit (by decide)
  · decide

/-- The terminal of a written specimen is read back. -/
theorem terminal_showInt (number : ℤ) : onboard.terminal ("ch".toList ++ showInt number) = parseDigits (showInt number) := by
  have hplain : ∀ c ∈ "ch".toList ++ showInt number, Text.isSpace c = false ∧ c.toLower = id c := by
    intro c hc
    rcases List.mem_append.mp hc with hletter | hnumber
    · have hletters : ∀ c ∈ "ch".toList, Text.isSpace c = false ∧ c.toLower = id c :=
        Text.forall_mem_of_all (by decide)
      exact hletters c hletter
    · exact ⟨(showInt_plain hnumber).1, (showInt_plain hnumber).2.1⟩
  have htrim : trim onboard.blank ("ch".toList ++ showInt number) = "ch".toList ++ showInt number :=
    Text.trim_eq_self fun c hc => (hplain c hc).1
  have hlower : PyText.lower ("ch".toList ++ showInt number) = "ch".toList ++ showInt number := by
    unfold PyText.lower
    rw [List.map_congr_left fun c hc => (hplain c hc).2, List.map_id]
  unfold Spelling.terminal
  rw [htrim, hlower]
  rfl

/-- The line of a written specimen is read back. -/
theorem line_showInt (number : ℤ) : onboard.line (showInt number) = parseDigits (showInt number) := by
  have htrim : trim onboard.blank (showInt number) = showInt number :=
    Text.trim_eq_self fun c hc => (showInt_plain hc).1
  have hlower : PyText.lower (showInt number) = showInt number := by
    have hsame : ∀ c ∈ showInt number, c.toLower = id c := fun c hc => (showInt_plain hc).2.1
    unfold PyText.lower
    rw [List.map_congr_left hsame, List.map_id]
  have hno : "bcm".toList.isPrefixOf (showInt number) = false := by
    cases hshow : showInt number with
    | nil => rfl
    | cons first rest =>
      have hfirst : first ≠ 'b' := (showInt_plain (hshow ▸ List.mem_cons_self)).2.2.2.2
      change ('b' == first && "cm".toList.isPrefixOf rest) = false
      rw [beq_eq_false_iff_ne.mpr hfirst.symm, Bool.false_and]
  unfold Spelling.line PyText.removeprefix
  rw [htrim, hlower, hno]
  rfl

/-- A specimen whose numbers the notation has room for. -/
def SpecimenConfig.Small (specimen : SpecimenConfig) : Prop :=
  specimen.rtdChannel < 10000 ∧ ∀ line ∈ specimen.heaterLine, line < 10000

/-- A written specimen is read back exactly as the small one it is. -/
theorem read_formatSpecimen {specimen : Specimen} {config : SpecimenConfig} :
    onboard.read (formatSpecimen specimen) = some config ↔ specimen = config.toSpecimen ∧ config.Small := by
  obtain ⟨channel, line⟩ := specimen
  obtain ⟨rtdChannel, heaterLine⟩ := config
  have hcolon : ':' ∉ "ch".toList ++ showInt channel := by
    intro hmem
    rcases List.mem_append.mp hmem with hletter | hnumber
    · exact absurd hletter (by decide)
    · exact (showInt_plain hnumber).2.2.1 rfl
  unfold Spelling.read formatSpecimen SpecimenConfig.toSpecimen SpecimenConfig.Small
  cases line with
  | none =>
    dsimp only
    rw [List.append_nil, Text.cut_eq_none hcolon]
    dsimp only
    rw [terminal_showInt, parseDigits_showInt]
    by_cases hsmall : 0 ≤ channel ∧ channel < 10000
    · rw [if_pos hsmall]
      cases heaterLine with
      | none =>
        simp
        omega
      | some line => simp
    · rw [if_neg hsmall]
      cases heaterLine with
      | none =>
        simp
        omega
      | some line => simp
  | some line =>
    dsimp only
    rw [Text.cut_append hcolon]
    dsimp only
    rw [terminal_showInt, line_showInt, parseDigits_showInt, parseDigits_showInt]
    by_cases hsmall : 0 ≤ channel ∧ channel < 10000
    · rw [if_pos hsmall]
      by_cases hlines : 0 ≤ line ∧ line < 10000
      · rw [if_pos hlines]
        cases heaterLine with
        | none => simp
        | some heated =>
          simp
          omega
      · rw [if_neg hlines]
        cases heaterLine with
        | none => simp
        | some heated =>
          simp
          omega
    · rw [if_neg hsmall]
      cases heaterLine with
      | none => simp
      | some heated =>
        simp
        omega

/-- The pieces of written specimens are the specimens. -/
theorem splitOn_formatSpecimens {specimens : List Specimen} (hne : specimens ≠ []) :
    (formatSpecimens specimens).splitOn ',' = specimens.map formatSpecimen := by
  unfold formatSpecimens
  refine List.splitOn_intercalate ',' ?_ (by simpa using hne)
  intro piece hpiece hmem
  obtain ⟨specimen, -, rfl⟩ := List.mem_map.mp hpiece
  unfold formatSpecimen at hmem
  simp only [List.mem_append] at hmem
  rcases hmem with (hletter | hnumber) | hline
  · exact absurd hletter (by decide)
  · exact (showInt_plain hnumber).2.2.2.1 rfl
  · cases hcase : specimen.line with
    | none =>
      rw [hcase] at hline
      exact absurd hline List.not_mem_nil
    | some line =>
      rw [hcase] at hline
      rcases List.mem_cons.mp hline with hcolon | hnumber
      · exact absurd hcolon (by decide)
      · exact (showInt_plain hnumber).2.2.2.1 rfl

/-- Written specimens are read back exactly as the small ones they are. -/
theorem parseSpecimenList_format {specimens : List Specimen} {configs : List SpecimenConfig} (hne : specimens ≠ []) :
    parseSpecimenList (formatSpecimens specimens) = some configs ↔
      specimens = configs.map SpecimenConfig.toSpecimen ∧ ∀ config ∈ configs, config.Small := by
  obtain ⟨init, last, hlast⟩ := (List.eq_nil_or_concat' specimens).resolve_left hne
  have hsplit : (formatSpecimens specimens).splitOn ',' = init.map formatSpecimen ++ [formatSpecimen last] := by
    rw [splitOn_formatSpecimens hne, hlast, List.map_append, List.map_singleton]
  have htrailing : ¬ (formatSpecimen last).all onboard.trailing = true := fun h =>
    Bool.false_ne_true (List.all_eq_true.mp h 'c' List.mem_cons_self)
  have hentries : List.Forall₂ onboard.Entry (specimens.map formatSpecimen) configs ↔
      specimens = configs.map SpecimenConfig.toSpecimen ∧ ∀ config ∈ configs, config.Small := by
    clear hlast hsplit htrailing hne
    rw [List.forall₂_map_left_iff]
    induction specimens generalizing configs with
    | nil =>
      rw [List.forall₂_nil_left_iff]
      cases configs <;> simp
    | cons specimen specimens ih =>
      rw [List.forall₂_cons_left_iff]
      constructor
      · rintro ⟨config, rest, hentry, hrest, rfl⟩
        obtain ⟨rfl, hsmall⟩ := read_formatSpecimen.mp (Spelling.read_eq_some.mpr hentry)
        obtain ⟨rfl, hsmalls⟩ := ih.mp hrest
        exact ⟨rfl, List.forall_mem_cons.mpr ⟨hsmall, hsmalls⟩⟩
      · rintro ⟨hsame, hsmall⟩
        cases configs with
        | nil => exact absurd hsame (List.cons_ne_nil _ _)
        | cons config configs =>
          obtain ⟨rfl, hrest⟩ := List.cons.inj hsame
          obtain ⟨hfirst, hmore⟩ := List.forall_mem_cons.mp hsmall
          exact ⟨config, configs, Spelling.read_eq_some.mp (read_formatSpecimen.mpr ⟨rfl, hfirst⟩),
            ih.mpr ⟨hrest, hmore⟩, rfl⟩
  rw [parseSpecimenList_eq_some, Spelling.written_iff hsplit, if_neg htrailing, ← List.map_singleton,
    ← List.map_append, ← hlast, hentries]
  refine ⟨And.left, fun h => ⟨h, ?_⟩⟩
  rintro rfl
  exact hne h.1

/-- The samples of a motor follow those of the motors before it. -/
theorem samplesFrom_getElem? (start : ℕ) (motors : List (List SpecimenConfig)) (motor : ℕ) :
    (samplesFrom start motors)[motor]? = (motors[motor]?).map fun group =>
      List.range' (start + (motors.take motor).flatten.length) group.length := by
  induction motors generalizing start motor with
  | nil => simp [samplesFrom]
  | cons group motors ih =>
    cases motor with
    | zero => simp [samplesFrom]
    | succ motor => simp [samplesFrom, ih, Nat.add_assoc]

/-- The first sample of a motor follows those of the motors before it. -/
theorem startsFrom_getElem? (start : ℕ) (motors : List (List SpecimenConfig)) (motor : ℕ) :
    (startsFrom start motors)[motor]? = (motors[motor]?).map fun _ =>
      start + (motors.take motor).flatten.length := by
  induction motors generalizing start motor with
  | nil => simp [startsFrom]
  | cons group motors ih =>
    cases motor with
    | zero => simp [startsFrom]
    | succ motor => simp [startsFrom, ih, Nat.add_assoc]

/-- The specimens of a motor stand after those of the motors before it. -/
theorem flatten_getElem? {motors : List (List SpecimenConfig)} {motor place : ℕ} {group : List SpecimenConfig}
    (hgroup : motors[motor]? = some group) (hplace : place < group.length) :
    motors.flatten[(motors.take motor).flatten.length + place]? = group[place]? := by
  induction motors generalizing motor with
  | nil => cases hgroup
  | cons first motors ih =>
    cases motor with
    | zero =>
      obtain rfl := Option.some.inj hgroup
      rw [List.take_zero, List.flatten_nil, List.length_nil, Nat.zero_add, List.flatten_cons,
        List.getElem?_append_left hplace]
    | succ motor =>
      have hlength : first.length ≤ first.length + (motors.take motor).flatten.length + place := by omega
      have hrest : first.length + (motors.take motor).flatten.length + place - first.length =
        (motors.take motor).flatten.length + place := by omega
      rw [List.take_succ_cons, List.flatten_cons, List.flatten_cons, List.length_append,
        List.getElem?_append_right hlength, hrest]
      exact ih hgroup

/-- A motor pulls the specimens it lists. -/
theorem fillMaps_pulls {motors : List (List SpecimenConfig)} {motor terminal : ℕ} :
    (fillMaps motors).Pulls motor terminal ↔ ∃ group, motors[motor]? = some group ∧ terminal ∈ terminalsOf group := by
  have hterminal {group : List SpecimenConfig} {place : ℕ} (hgroup : motors[motor]? = some group)
      (hplace : place < group.length) :
      (terminalsOf motors.flatten)[0 + (motors.take motor).flatten.length + place]? = (terminalsOf group)[place]? := by
    unfold terminalsOf
    rw [List.getElem?_map, List.getElem?_map, Nat.zero_add, flatten_getElem? hgroup hplace]
  rw [fillMaps_eq]
  unfold LayoutMaps.Pulls
  dsimp only
  rw [samplesFrom_getElem?]
  constructor
  · rintro ⟨samples, sample, hsamples, hmem, hat⟩
    obtain ⟨group, hgroup, rfl⟩ := Option.map_eq_some_iff.mp hsamples
    obtain ⟨place, hplace, rfl⟩ := List.mem_range'.mp hmem
    rw [Nat.one_mul, hterminal hgroup hplace] at hat
    exact ⟨group, hgroup, List.mem_of_getElem? hat⟩
  · rintro ⟨group, hgroup, hmem⟩
    obtain ⟨place, hat⟩ := List.mem_iff_getElem?.mp hmem
    have hplace : place < group.length := by
      have hlt := (List.getElem?_eq_some_iff.mp hat).1
      rwa [terminalsOf, List.length_map] at hlt
    refine ⟨_, _, by rw [hgroup]; rfl, List.mem_range'.mpr ⟨place, hplace, rfl⟩, ?_⟩
    rw [Nat.one_mul, hterminal hgroup hplace, hat]

/-- A click reads the first specimen of its motor. -/
theorem fillMaps_reads {motors : List (List SpecimenConfig)} (hlisted : ∀ group ∈ motors, group ≠ [])
    {click terminal : ℕ} : (fillMaps motors).Reads click terminal ↔
      ∃ group, motors[click]? = some group ∧ (terminalsOf group)[0]? = some terminal := by
  have hfirst {group : List SpecimenConfig} (hgroup : motors[click]? = some group) :
      (terminalsOf motors.flatten)[0 + (motors.take click).flatten.length]? = (terminalsOf group)[0]? := by
    have hpos : 0 < group.length := List.length_pos_iff.mpr (hlisted group (List.mem_of_getElem? hgroup))
    unfold terminalsOf
    rw [List.getElem?_map, List.getElem?_map, Nat.zero_add, ← flatten_getElem? hgroup hpos, Nat.add_zero]
  rw [fillMaps_eq]
  unfold LayoutMaps.Reads
  dsimp only
  rw [startsFrom_getElem?]
  constructor
  · rintro ⟨sample, hsample, hat⟩
    obtain ⟨group, hgroup, rfl⟩ := Option.map_eq_some_iff.mp hsample
    exact ⟨group, hgroup, (hfirst hgroup).symm.trans hat⟩
  · rintro ⟨group, hgroup, hat⟩
    exact ⟨_, by rw [hgroup]; rfl, (hfirst hgroup).trans hat⟩

/-- The lines and the heated samples go together. -/
theorem zip_heated (start : ℕ) (specimens : List SpecimenConfig) : (linesOf specimens).zip (heatedFrom start specimens) =
    (specimens.zipIdx start).filterMap fun numbered => numbered.1.heaterLine.map fun line => (line, numbered.2) := by
  induction specimens generalizing start with
  | nil => rfl
  | cons specimen specimens ih =>
    obtain ⟨channel, line⟩ := specimen
    have hrest := ih (start + 1)
    unfold linesOf heatedFrom at hrest ⊢
    cases line with
    | none => simpa using hrest
    | some line => simpa using hrest

/-- A line heats the specimen it stands with. -/
theorem fillMaps_heats {motors : List (List SpecimenConfig)} {line terminal : ℕ} :
    (fillMaps motors).Heats line terminal ↔ ⟨terminal, some line⟩ ∈ motors.flatten := by
  rw [fillMaps_eq]
  unfold LayoutMaps.Heats
  dsimp only
  have hpair (sample : ℕ) : (∃ heater : ℕ, (linesOf motors.flatten)[heater]? = some line ∧
      (heatedFrom 0 motors.flatten)[heater]? = some sample) ↔
      ∃ specimen, motors.flatten[sample]? = some specimen ∧ specimen.heaterLine = some line := by
    have hzip : (∃ heater : ℕ, (linesOf motors.flatten)[heater]? = some line ∧
        (heatedFrom 0 motors.flatten)[heater]? = some sample) ↔
        (line, sample) ∈ (linesOf motors.flatten).zip (heatedFrom 0 motors.flatten) := by
      rw [List.mem_iff_getElem?]
      simp only [List.getElem?_zip_eq_some]
    rw [hzip, zip_heated, List.mem_filterMap]
    constructor
    · rintro ⟨⟨specimen, number⟩, hmem, hline⟩
      obtain ⟨heated, hheated, hsame⟩ := Option.map_eq_some_iff.mp hline
      obtain ⟨rfl, rfl⟩ := Prod.mk.inj hsame
      exact ⟨specimen, List.mem_zipIdx_iff_getElem?.mp hmem, hheated⟩
    · rintro ⟨specimen, hat, hline⟩
      exact ⟨(specimen, sample), List.mem_zipIdx_iff_getElem?.mpr hat, by rw [hline]; rfl⟩
  constructor
  · rintro ⟨heater, sample, hline, hheated, hat⟩
    obtain ⟨specimen, hspecimen, hspecimenLine⟩ := (hpair sample).mp ⟨heater, hline, hheated⟩
    unfold terminalsOf at hat
    rw [List.getElem?_map, hspecimen] at hat
    obtain ⟨channel, line'⟩ := specimen
    obtain rfl := Option.some.inj hat
    obtain rfl := hspecimenLine
    exact List.mem_of_getElem? hspecimen
  · intro hmem
    obtain ⟨sample, hat⟩ := List.mem_iff_getElem?.mp hmem
    obtain ⟨heater, hline, hheated⟩ := (hpair sample).mpr ⟨_, hat, rfl⟩
    refine ⟨heater, sample, hline, hheated, ?_⟩
    unfold terminalsOf
    rw [List.getElem?_map, hat]
    rfl

/-- The file that is made is read as the specimens in it and the counts of the old one. -/
theorem readLayout_carryOver {values converted : Values} {config derived : LayoutConfig} {first second : List Char}
    (hread : readLayout values = some config) (hlegacy : values.sets specimenKeys = false)
    (hsample : converted "hardware.sample_count" = none) (hheater : converted "hardware.heater_count" = none)
    (hfirst : carryOver values converted "motor0.specimens" = some first)
    (hsecond : carryOver values converted "motor1.specimens" = some second) :
    readLayout (carryOver values converted) = some derived ↔
      ∃ one two, parseSpecimenList first = some one ∧ parseSpecimenList second = some two ∧
        Proper [one, two] config.sampleCount config.heaterCount ∧
        derived = ⟨config.sampleCount, config.heaterCount, fillMaps [one, two]⟩ := by
  obtain ⟨hsamples, hheaters, -⟩ := readLayout_legacy hread hlegacy
  have hcount {key : String} {default : List Char} {count : ℕ} (hexample : exampleValues key = some default)
      (hnone : converted key = none) (hdefault : parseNumber default = some count) (other : ℕ) :
      (carryOver values converted).readOr key parseNumber other = values.readOr key parseNumber count := by
    unfold Values.readOr carryOver
    rw [hexample, hnone]
    cases hvalue : values key with
    | none => simpa using hdefault
    | some value => rfl
  have hother {key : String} (hexample : exampleValues key = none) (read : List Char → Option (List ℕ))
      (default : List ℕ) : (carryOver values converted).readOr key read default = some default := by
    unfold Values.readOr carryOver
    rw [hexample]
    rfl
  have hset : (carryOver values converted).sets specimenKeys = true := by
    unfold Values.sets specimenKeys
    rw [List.any_cons, hfirst]
    rfl
  have hboth : (specimenKeys.any fun key => (carryOver values converted key).isNone) = false := by
    unfold specimenKeys
    rw [List.any_cons, List.any_cons, hfirst, hsecond]
    rfl
  have hnone : (carryOver values converted).sets layoutKeys = false := by
    unfold Values.sets carryOver
    rw [List.any_eq_false]
    intro key hkey
    have hexample : ∀ key ∈ layoutKeys, exampleValues key = none := by decide
    rw [hexample key hkey]
    simp
  have hone : (carryOver values converted).readOr "motor0.specimens" parseSpecimenList [] = parseSpecimenList first := by
    unfold Values.readOr
    rw [hfirst]
  have htwo : (carryOver values converted).readOr "motor1.specimens" parseSpecimenList [] =
      parseSpecimenList second := by
    unfold Values.readOr
    rw [hsecond]
  have height : parseNumber "8".toList = some 8 := by decide
  have hsix : parseNumber "6".toList = some 6 := by decide
  have hsampleCount := (hcount rfl hsample height 8).trans hsamples
  have hheaterCount := (hcount rfl hheater hsix 6).trans hheaters
  have hshape : readLayout (carryOver values converted) = (do
      let one ← parseSpecimenList first
      let two ← parseSpecimenList second
      let maps ← (deriveLayoutFromSpecimens [one, two] config.sampleCount config.heaterCount).toOption
      return (⟨config.sampleCount, config.heaterCount, maps⟩ : LayoutConfig)) := by
    unfold readLayout
    rw [hsampleCount, hheaterCount, hother rfl, hother rfl, hother rfl, hother rfl, hother rfl, hother rfl, hone, htwo,
      hset, hboth, hnone]
    rfl
  rw [hshape]
  constructor
  · intro h
    obtain ⟨one, hparse, h⟩ := Option.bind_eq_some_iff.mp h
    obtain ⟨two, hparse', h⟩ := Option.bind_eq_some_iff.mp h
    obtain ⟨maps, hmaps, h⟩ := Option.bind_eq_some_iff.mp h
    refine ⟨one, two, hparse, hparse', ?_⟩
    cases hderive : deriveLayoutFromSpecimens [one, two] config.sampleCount config.heaterCount with
    | error message =>
      rw [hderive] at hmaps
      cases hmaps
    | ok derived =>
      rw [hderive] at hmaps
      obtain ⟨hproper, rfl⟩ := deriveLayoutFromSpecimens_eq_ok.mp hderive
      obtain rfl := Option.some.inj hmaps
      exact ⟨hproper, (Option.some.inj h).symm⟩
  · rintro ⟨one, two, hparse, hparse', hproper, rfl⟩
    have hderive : (deriveLayoutFromSpecimens [one, two] config.sampleCount config.heaterCount).toOption =
        some (fillMaps [one, two]) := by
      rw [deriveLayoutFromSpecimens_eq_ok.mpr ⟨hproper, rfl⟩]
      rfl
    rw [hparse, hparse', Option.bind_eq_bind, Option.bind_some, Option.bind_eq_bind, Option.bind_some, hderive]
    rfl

end Coatheal.Wiring
