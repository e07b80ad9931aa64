import Coatheal.Ground.Dict
import Coatheal.Library.Calendar
import Coatheal.Telemetry.Fields

/-!
# From the record to the packet

A frame is written by the onboard and read by the ground station, and each of
them knows the layout for itself.
-/

namespace Coatheal.Telemetry

open Library Library.Text Library.PyText Ground Sensors

/-- A motor with its decimals rounded as they are printed. -/
def snapshotOf (st : StepperStatus) : StepperSnapshot where
  position := st.positionSteps.toInt
  target := st.targetSteps.toInt
  hz := rounded 2 st.stepHz
  microstep := st.microstep.toInt
  enabled := st.enabled
  healthy := st.healthy
  moving := st.moving
  holding := st.holding
  holdS := rounded 2 st.holdRemainingS
  pulses := st.pulsesTotal.toNat
  missedDeadlines := st.missedDeadlines.toNat
  source := st.lastSource
  zeroed := some st.zeroed
  seqName := st.seqName
  seqState := st.seqState
  amps := some (rounded 2 st.runCurrentARms)
  accel := some (rounded 1 st.accelStepsPerS2)
  mm := some (rounded 3 st.positionMm)
  mmTgt := some (rounded 3 st.targetMm)
  thermal := some (thermalName st.thermalState)
  stepLoss := some st.stepLossEvents.toNat
  positionUncertain := some st.positionUncertain

/-- The motors of a record by their indices. -/
def snapshotsOf (steppers : List StepperStatus) : List (ℤ × StepperSnapshot) :=
  steppers.zipIdx.map fun entry => (entry.2, snapshotOf entry.1)

/-- The packet of a record: each field in its place, and decimals rounded as they are printed. -/
def packetOf (record : TelemetryRecord) (sessionId : List Char) (age : ℕ) : TelemetryPacket where
  sessionId := sessionId
  seq := record.seq.toNat
  timestamp := record.sensors.timestampUtc
  rtcValid := if record.sensors.rtcValid then 1 else 0
  ambientTempC := rounded 2 record.sensors.ambientTempC
  ambientPressureMbar := rounded 2 record.sensors.ambientPressureMbar
  uv := rounded 2 record.sensors.uv
  sampleTempsC := record.sensors.sampleTempsC.map (rounded 2)
  heaterDuty := record.heaterDuty.map (rounded 3)
  sampleResistanceOhm := record.sensors.resistances.map (Option.map (rounded 3))
  phase := phaseName record.phase
  status := toStatusBitfield record.status
  mode := modeName record.mode
  sensorValid := record.sensors.validEntries
  sensorAgeMs := record.sensors.ageEntries.map (Prod.map id Int64.toInt)
  componentState := record.componentEntries
  steppers := snapshotsOf record.steppers
  stepper := record.steppers.head?.map snapshotOf
  ctrl := ctrlEntries record.ctrl
  txAgeS := some ⟨false, doubleOf age⟩

/-- A motor as it is read: words stand for empty texts, and no sequence is a dash. -/
def StepperStatus.asRead (st : StepperStatus) : StepperStatus :=
  { st.spelled with seqName := if st.seqName = "-".toList then [] else st.seqName }

/-- A record as it is read. -/
def TelemetryRecord.asRead (record : TelemetryRecord) : TelemetryRecord :=
  { record with ctrl := record.ctrl.spelled, steppers := record.steppers.map StepperStatus.asRead }

/-- A 64-bit integer is read back. -/
theorem int_showInt64 (value : Int64) : int (showInt64 value) = some value.toInt :=
  int_showInt_of_lt (by have := value.toInt_lt; have := value.le_toInt; omega)

/-- A 32-bit integer is read back. -/
theorem int_showInt32 (value : Int32) : int (showInt value.toInt) = some value.toInt :=
  int_showInt_of_lt (by have := value.toInt_lt; have := value.le_toInt; omega)

/-- A count of 64 bits is read back. -/
theorem int_showCount (value : UInt64) : int (showNat value.toNat) = some (value.toNat : ℤ) :=
  @int_showInt_of_lt value.toNat (by have := value.toNat_lt; omega)

/-- A flag is read back. -/
theorem flag_bit (value : Bool) : flag (bit value) = value := by
  cases value with
  | true => rfl
  | false => rfl

/-- A fold goes on with what its first step gives. -/
theorem foldlM_cons_of_some {α σ : Type} {f : σ → α → Option σ} {s next : σ} {entry : α} {entries : List α}
    {result : Option σ} (hstep : f s entry = some next) (hrest : entries.foldlM f next = result) :
    (entry :: entries).foldlM f s = result := by
  rw [List.foldlM_cons, hstep]
  exact hrest

/-- A value that is read is set. -/
theorem setStepperField_of_read {α : Type} {s : StepperSnapshot} {key raw : List Char} {read : List Char → Option α}
    {set : α → StepperSnapshot} {value : α} (hset : setStepperField s key raw = (read raw).map set)
    (hread : read raw = some value) : setStepperField s key raw = some (set value) := by
  rw [hset, hread]
  rfl

/-- The entries of a motor are read into its snapshot. -/
theorem foldlM_stepperEntries (st : StepperStatus) :
    (stepperEntries st).foldlM (fun s entry => setStepperField s entry.1 entry.2) {} =
      some { snapshotOf st with seqName := if st.seqName = "-".toList then [] else st.seqName } := by
  unfold stepperEntries
  refine foldlM_cons_of_some (setStepperField_of_read rfl (int_showInt64 _)) ?_
  refine foldlM_cons_of_some (setStepperField_of_read rfl (int_showInt64 _)) ?_
  refine foldlM_cons_of_some (setStepperField_of_read rfl (float_showFixed (by decide) _)) ?_
  refine foldlM_cons_of_some (setStepperField_of_read rfl (int_showInt32 _)) ?_
  refine foldlM_cons_of_some rfl ?_
  refine foldlM_cons_of_some rfl ?_
  refine foldlM_cons_of_some rfl ?_
  refine foldlM_cons_of_some rfl ?_
  refine foldlM_cons_of_some (setStepperField_of_read rfl (float_showFixed (by decide) _)) ?_
  refine foldlM_cons_of_some (setStepperField_of_read rfl (int_showCount _)) ?_
  refine foldlM_cons_of_some (setStepperField_of_read rfl (int_showCount _)) ?_
  refine foldlM_cons_of_some rfl ?_
  refine foldlM_cons_of_some rfl ?_
  refine foldlM_cons_of_some rfl ?_
  refine foldlM_cons_of_some rfl ?_
  refine foldlM_cons_of_some (setStepperField_of_read rfl (float_showFixed (by decide) _)) ?_
  refine foldlM_cons_of_some (setStepperField_of_read rfl (float_showFixed (by decide) _)) ?_
  refine foldlM_cons_of_some (setStepperField_of_read rfl (float_showFixed (by decide) _)) ?_
  refine foldlM_cons_of_some (setStepperField_of_read rfl (float_showFixed (by decide) _)) ?_
  refine foldlM_cons_of_some rfl ?_
  refine foldlM_cons_of_some (setStepperField_of_read rfl (int_showCount _)) ?_
  refine foldlM_cons_of_some rfl ?_
  simp only [flag_bit]
  rfl

/-- A piece of a motor's segment. -/
def readPiece (s : StepperSnapshot) (piece : List Char) : Option StepperSnapshot :=
  if piece = [] then some s else (cut ':' piece).bind fun entry => setStepperField s entry.1 entry.2

/-- The pieces of plain entries are read as the entries. -/
theorem foldlM_readPiece {entries : List (List Char × List Char)} (h : ∀ entry ∈ entries, PlainEntry entry)
    (s : StepperSnapshot) :
    (entries.map fun entry => entry.1 ++ ':' :: entry.2).foldlM readPiece s =
      entries.foldlM (fun s entry => setStepperField s entry.1 entry.2) s := by
  induction entries generalizing s with
  | nil => rfl
  | cons entry entries ih =>
    obtain ⟨hentry, hrest⟩ := List.forall_mem_cons.mp h
    have hne : entry.1 ++ ':' :: entry.2 ≠ [] := by simp
    rw [List.map_cons, List.foldlM_cons, List.foldlM_cons, readPiece, if_neg hne, cut_append hentry.colon]
    exact congrArg _ (funext fun next => ih hrest next)

/-- A motor's segment is read as the motor. -/
theorem parseStepperSegment_block {st : StepperStatus} (h : PlainMotor st) :
    parseStepperSegment (block (stepperEntries st.spelled)) = some (snapshotOf st.asRead) := by
  have hne : stepperEntries st.spelled ≠ [] := List.cons_ne_nil _ _
  have hread : parseStepperSegment (block (stepperEntries st.spelled)) =
      ((block (stepperEntries st.spelled)).splitOn '|').foldlM readPiece {} := rfl
  have hname : (if st.spelled.seqName = "-".toList then [] else st.spelled.seqName) = st.asRead.seqName := by
    unfold StepperStatus.asRead StepperStatus.spelled textOr
    by_cases hempty : st.seqName = []
    · simp [hempty]
    · simp [hempty]
  rw [hread, splitOn_block hne h.plainEntry, foldlM_readPiece h.plainEntry, foldlM_stepperEntries, hname]
  rfl

/-- A motor's index is told from an old onboard's segment by its first digit. -/
theorem startsWith_showNat (i : ℕ) (tail : List Char) :
    startsWith "STEPPER=" ("STEPPER".toList ++ (showNat i ++ tail)) = false := by
  cases hshow : showNat i with
  | nil => exact absurd hshow (showNat_ne_nil i)
  | cons c rest =>
    have hdigit : c.isDigit = true := showNat_digits (hshow ▸ List.mem_cons_self)
    have hc : ('=' == c) = false := by
      refine beq_eq_false_iff_ne.mpr ?_
      rintro rfl
      exact absurd hdigit (by decide)
    exact congrArg (· && _) hc

/-- A motor's segment is read under its index. -/
theorem readToken_indexed (s : Sections) (i : ℕ) (value : List Char) (hi : i < 2 ^ 64) :
    readToken s ("STEPPER".toList ++ (showNat i ++ '=' :: value)) = (parseStepperSegment value).map fun snapshot =>
      { s with indexedSteppers := setStepper s.indexedSteppers i snapshot } := by
  have hname : '=' ∉ "STEPPER".toList ++ showNat i := by
    intro hmem
    rcases List.mem_append.mp hmem with hword | hdigits
    · exact absurd hword (by decide)
    · exact absurd (showNat_digits hdigits) (by decide)
  have hdigits : isDigits (showNat i) = true := isDigits_showNat i
  have hint : int (showNat i) = some (i : ℤ) := @int_showInt_of_lt i (by omega)
  have hread (token : List Char) : readToken s ("STEPPER".toList ++ token) =
      if startsWith "STEPPER=" ("STEPPER".toList ++ token) then
        (parseStepperSegment (afterEquals ("STEPPER".toList ++ token))).map fun snapshot =>
          { s with legacyStepper := some snapshot }
      else readIndexedStepper s ("STEPPER".toList ++ token) := rfl
  rw [hread, startsWith_showNat, if_neg Bool.false_ne_true, readIndexedStepper, ← List.append_assoc, cut_append hname]
  have hdrop : ("STEPPER".toList ++ showNat i).drop "STEPPER".length = showNat i := rfl
  dsimp only
  rw [hdrop, hdigits, if_neg Bool.true_eq_false_eq_False, hint]
  cases parseStepperSegment value with
  | none => rfl
  | some snapshot => rfl

/-- A motor's field is read into its place. -/
theorem readToken_stepperSegment {st : StepperStatus} (h : PlainMotor st) {i : ℕ} (hi : i < 2 ^ 31) (s : Sections) :
    readToken s (stepperSegment st (Int32.ofNat i)) =
      some { s with indexedSteppers := setStepper s.indexedSteppers i (snapshotOf st.asRead) } := by
  have hshow : showInt (Int32.ofNat i).toInt = showNat i := by
    rw [Int32.toInt_ofNat_of_lt hi]
    rfl
  have hread := readToken_indexed s i (block (stepperEntries st.spelled)) (by omega)
  rw [parseStepperSegment_block h] at hread
  unfold stepperSegment
  rw [hshow]
  exact (congrArg (readToken s) (List.append_assoc _ _ _)).trans hread

/-- What the motors of a record are read into, from a motor's index on. -/
theorem foldlM_stepperFields {steppers : List StepperStatus} (h : ∀ st ∈ steppers, PlainMotor st) {first : ℕ}
    (hcount : first + steppers.length ≤ 2 ^ 31) {s : Sections} (hids : ∀ entry ∈ s.indexedSteppers, entry.1 < first) :
    ((steppers.zipIdx first).map fun entry => stepperSegment entry.1 (Int32.ofNat entry.2)).foldlM readToken s =
      some { s with indexedSteppers := s.indexedSteppers ++
        (steppers.zipIdx first).map fun entry => ((entry.2 : ℤ), snapshotOf entry.1.asRead) } := by
  induction steppers generalizing first s with
  | nil => simp
  | cons st steppers ih =>
    obtain ⟨hst, hrest⟩ := List.forall_mem_cons.mp h
    rw [List.length_cons] at hcount
    have hnew : setStepper s.indexedSteppers first (snapshotOf st.asRead) =
        s.indexedSteppers ++ [((first : ℤ), snapshotOf st.asRead)] := by
      have hnone : (s.indexedSteppers.any fun entry => entry.1 = (first : ℤ)) = false := by
        refine List.any_eq_false.mpr fun entry hentry => ?_
        have hlt := hids entry hentry
        simp only [decide_eq_true_eq]
        omega
      rw [setStepper, hnone, if_neg Bool.false_ne_true]
    rw [List.zipIdx_cons, List.map_cons]
    refine foldlM_cons_of_some (readToken_stepperSegment hst (by omega) s) ?_
    rw [hnew, ih hrest (by omega) ?_, List.map_cons, List.append_assoc]
    · rfl
    · intro entry hentry
      rcases List.mem_append.mp hentry with hold | hlast
      · have hlt := hids entry hold
        omega
      · rw [List.mem_singleton.mp hlast]
        omega

/-- Values that are each read are read as a list. -/
theorem mapM_map_of_some {α β γ : Type} {print : α → β} {read : β → Option γ} {value : α → γ}
    (h : ∀ a, read (print a) = some (value a)) (items : List α) :
    (items.map print).mapM read = some (items.map value) := by
  induction items with
  | nil => rfl
  | cons item items ih =>
    rw [List.map_cons, List.mapM_cons, h, ih]
    rfl

/-- A printed number is neither empty nor a dash. -/
theorem showFixed_ne {decimals : ℕ} (hpos : 0 < decimals) (value : Double) :
    showFixed decimals value ≠ [] ∧ showFixed decimals value ≠ "-".toList := by
  have hread := float_showFixed hpos value
  have hempty : float [] = none := by decide
  have hdash : float "-".toList = none := by decide
  constructor
  · intro h
    rw [h, hempty] at hread
    exact Option.some_ne_none _ hread.symm
  · intro h
    rw [h, hdash] at hread
    exact Option.some_ne_none _ hread.symm

/-- A resistance is read back, and a dash as none. -/
theorem readResistance_showResistance (resistance : Option Double) :
    readResistance (showResistance resistance) = some (resistance.map (rounded 3)) := by
  cases resistance with
  | none => rfl
  | some value =>
    have hne := showFixed_ne (by decide : 0 < 3) value
    have hshow : showResistance (some value) = showFixed 3 value := rfl
    rw [hshow, readResistance, if_neg (not_or.mpr hne), float_showFixed (by decide)]
    rfl

/-- The field of the resistances is read back. -/
theorem readToken_resistances (s : Sections) (hnone : s.sampleResistanceOhm = []) (resistances : List (Option Double)) :
    readToken s ("RESISTANCE=".toList ++ bars (resistances.map showResistance)) =
      some { s with sampleResistanceOhm := resistances.map (Option.map (rounded 3)) } := by
  have hread (value : List Char) : readToken s ("RESISTANCE=".toList ++ value) =
      if value = [] then some { s with sampleResistanceOhm := [] }
      else ((value.splitOn '|').mapM readResistance).map fun more =>
        { s with sampleResistanceOhm := s.sampleResistanceOhm ++ more } := rfl
  rw [hread]
  cases resistances with
  | nil => rfl
  | cons first rest =>
    have hne : (first :: rest).map showResistance ≠ [] := List.cons_ne_nil _ _
    have hplain : ∀ value ∈ (first :: rest).map showResistance, '|' ∉ value := by
      intro value hvalue
      obtain ⟨resistance, -, rfl⟩ := List.mem_map.mp hvalue
      exact (plainText_showResistance resistance).2
    have hsplit := splitOn_bars hne hplain
    have hfirst : showResistance first ≠ [] := by
      cases first with
      | none => exact List.cons_ne_nil _ _
      | some value => exact (showFixed_ne (by decide) value).1
    have hvalue : bars ((first :: rest).map showResistance) ≠ [] := by
      intro hempty
      rw [hempty] at hsplit
      exact hfirst (List.cons.inj hsplit).1.symm
    rw [if_neg hvalue, hsplit, mapM_map_of_some readResistance_showResistance, hnone]
    rfl

/-- The keys of the entries of the sensors differ. -/
theorem nodup_sensorEntries {α : Type} (ambientTemp ambientPressure uv : α) (samples : ℕ) (sample : ℕ → α) :
    (Dict.keys (sensorEntries ambientTemp ambientPressure uv samples sample)).Nodup := by
  have hkeys : Dict.keys (sensorEntries ambientTemp ambientPressure uv samples sample) =
      ["AT".toList, "AP".toList, "UV".toList] ++ (List.range samples).map fun i => 'S' :: showNat i := by
    simp [Dict.keys, sensorEntries]
  rw [hkeys, List.nodup_append]
  refine ⟨by decide, List.nodup_range.map fun i j heq => Calendar.showNat_injective (List.cons.inj heq).2, ?_⟩
  intro fixed hfixed key hkey heq
  obtain ⟨i, -, rfl⟩ := List.mem_map.mp hkey
  simp only [List.mem_cons, List.not_mem_nil, or_false] at hfixed
  rcases hfixed with rfl | rfl | rfl
  all_goals exact absurd (List.cons.inj heq).1 (by decide)

/-- The entries that tell what is valid are read back. -/
theorem foldl_valid {entries : List (List Char × Bool)} (h : (Dict.keys entries).Nodup) :
    (entries.map (Prod.map id bit)).foldl
      (fun (dict : Dict Bool) entry => dict.set entry.1 (decide (entry.2 = "1".toList))) [] = entries := by
  have hbit (value : Bool) : decide (bit value = "1".toList) = value := by
    cases value with
    | true => rfl
    | false => rfl
  rw [List.foldl_map]
  simp only [Prod.map_fst, Prod.map_snd, id_eq, hbit]
  exact Dictionary.foldl_set h

/-- The entries that tell ages are read back. -/
theorem foldlM_ages {entries : List (List Char × Int64)} (h : (Dict.keys entries).Nodup) :
    (entries.map (Prod.map id showInt64)).foldlM
      (fun (dict : Dict ℤ) entry => (int entry.2).map (dict.set entry.1)) [] =
        some (entries.map (Prod.map id Int64.toInt)) := by
  have hread (entries : List (List Char × Int64)) (dict : Dict ℤ) : (entries.map (Prod.map id showInt64)).foldlM
      (fun (dict : Dict ℤ) entry => (int entry.2).map (dict.set entry.1)) dict =
        some ((entries.map (Prod.map id Int64.toInt)).foldl (fun (dict : Dict ℤ) entry => dict.set entry.1 entry.2) dict) := by
    induction entries generalizing dict with
    | nil => rfl
    | cons entry entries ih =>
      rw [List.map_cons, List.map_cons, List.foldl_cons]
      refine foldlM_cons_of_some ?_ (ih _)
      rw [Prod.map_snd, int_showInt64]
      rfl
  have hkeys : (Dict.keys (entries.map (Prod.map id Int64.toInt))).Nodup := by
    have hsame : Dict.keys (entries.map (Prod.map id Int64.toInt)) = Dict.keys entries := by
      simp [Dict.keys]
    rwa [hsame]
  rw [hread]
  exact congrArg some (Dictionary.foldl_set hkeys)

/-- The stamp is read back. -/
theorem readToken_ageField (s : Sections) (age : ℕ) :
    readToken s (ageField age) = some { s with txAgeS := some ⟨false, doubleOf age⟩ } := by
  have hread : readToken s (ageField age) = some { s with txAgeS := (float (showNat age)).map atLeastZero } := rfl
  rw [hread, float_showNat]
  have hsame : atLeastZero ⟨false, doubleOf age⟩ = ⟨false, doubleOf age⟩ := by
    unfold doubleOf
    dsimp only
    split
    · rfl
    · rfl
  rw [Option.map_some, hsame]

/-- The block of what is valid is read back. -/
theorem readToken_valid (s : Sections) (sensors : SensorSnapshot) :
    readToken s ("SENSOR_VALID=".toList ++ block (sensors.validEntries.map (Prod.map id bit))) =
      some { s with sensorValid := sensors.validEntries } := by
  have hread (value : List Char) : readToken s ("SENSOR_VALID=".toList ++ value) =
      some { s with sensorValid :=
        (pairs value).foldl (fun dict entry => dict.set entry.1 (decide (entry.2 = "1".toList))) [] } := rfl
  have hpairs := @pairs_block (sensors.validEntries.map (Prod.map id bit)) (by simp [SensorSnapshot.validEntries,
    sensorEntries]) (plainEntry_sensorEntries plainText_bit _ _ _ _ _)
  have hkeys : (Dict.keys sensors.validEntries).Nodup := nodup_sensorEntries _ _ _ _ _
  rw [hread, hpairs, foldl_valid hkeys]

/-- The block of the ages is read back. -/
theorem readToken_ages (s : Sections) (sensors : SensorSnapshot) :
    readToken s ("SENSOR_AGE_MS=".toList ++ block (sensors.ageEntries.map (Prod.map id showInt64))) =
      some { s with sensorAgeMs := sensors.ageEntries.map (Prod.map id Int64.toInt) } := by
  have hread (value : List Char) : readToken s ("SENSOR_AGE_MS=".toList ++ value) =
      ((pairs value).foldlM (fun (dict : Dict ℤ) entry => (int entry.2).map (dict.set entry.1)) []).map fun ages =>
        { s with sensorAgeMs := ages } := rfl
  have hpairs := @pairs_block (sensors.ageEntries.map (Prod.map id showInt64)) (by simp [SensorSnapshot.ageEntries,
    sensorEntries]) (plainEntry_sensorEntries (fun _ => plainText_showInt _) _ _ _ _ _)
  have hkeys : (Dict.keys sensors.ageEntries).Nodup := nodup_sensorEntries _ _ _ _ _
  rw [hread, hpairs, foldlM_ages hkeys]
  rfl

/-- The entries of a block with different keys are read back. -/
theorem foldl_texts {entries : List (List Char × List Char)} (hne : entries ≠ [])
    (h : ∀ entry ∈ entries, PlainEntry entry) (hkeys : (Dict.keys entries).Nodup) :
    (pairs (block entries)).foldl (fun (dict : Dict (List Char)) entry => dict.set entry.1 entry.2) [] = entries := by
  rw [pairs_block hne h]
  exact Dictionary.foldl_set hkeys

/-- The block of the components is read back. -/
theorem readToken_components (s : Sections) (record : TelemetryRecord) :
    readToken s ("COMPONENT_STATE=".toList ++ block record.componentEntries) =
      some { s with componentState := record.componentEntries } := by
  have hread (value : List Char) : readToken s ("COMPONENT_STATE=".toList ++ value) =
      some { s with componentState := (pairs value).foldl (fun dict entry => dict.set entry.1 entry.2) [] } := rfl
  have hkeys : (Dict.keys record.componentEntries).Nodup := by
    unfold TelemetryRecord.componentEntries Dict.keys
    simp only [List.map_cons, List.map_nil]
    decide
  have hne : record.componentEntries ≠ [] := List.cons_ne_nil _ _
  rw [hread, foldl_texts hne (plainEntry_componentEntries record) hkeys]

/-- The block of the controller is read back. -/
theorem readToken_ctrl (s : Sections) {ctrl : CtrlStatus} (hplan : PlainText ctrl.plan) (htune : PlainText ctrl.tune) :
    readToken s ("CTRL=".toList ++ block (ctrlEntries ctrl)) = some { s with ctrl := ctrlEntries ctrl } := by
  have hread (value : List Char) : readToken s ("CTRL=".toList ++ value) =
      some { s with ctrl := (pairs value).foldl (fun dict entry => dict.set entry.1 entry.2) [] } := rfl
  have hkeys : (Dict.keys (ctrlEntries ctrl)).Nodup := by
    unfold ctrlEntries Dict.keys
    simp only [List.map_cons, List.map_nil]
    decide
  have hne : ctrlEntries ctrl ≠ [] := List.cons_ne_nil _ _
  rw [hread, foldl_texts hne (plainEntry_ctrlEntries hplan htune) hkeys]

/-- The states of the components are read as they are. -/
theorem componentEntries_asRead (record : TelemetryRecord) : record.asRead.componentEntries = record.componentEntries := by
  have hmotor (motor : ℕ) : record.asRead.motorState motor = record.motorState motor := by
    unfold TelemetryRecord.motorState TelemetryRecord.asRead
    rw [List.getElem?_map, Option.any_map]
    rfl
  unfold TelemetryRecord.componentEntries
  rw [hmotor, hmotor]
  rfl

/-- The field of the phase is read back. -/
theorem readToken_phase (s : Sections) (value : List Char) :
    readToken s ("PHASE=".toList ++ value) = some { s with phase := value } := rfl

/-- The field of the mode is read back. -/
theorem readToken_mode (s : Sections) (value : List Char) :
    readToken s ("MODE=".toList ++ value) = some { s with mode := value } := rfl

/-- The field of the status is read back. -/
theorem readToken_status (s : Sections) (value : List Char) :
    readToken s ("STATUS=".toList ++ value) = some { s with status := value } := rfl

/-- What the blocks are read into. -/
def blocksOf (record : TelemetryRecord) : Sections where
  phase := phaseName record.phase
  status := toStatusBitfield record.status
  mode := modeName record.mode
  sampleResistanceOhm := record.sensors.resistances.map (Option.map (rounded 3))
  sensorValid := record.sensors.validEntries
  sensorAgeMs := record.sensors.ageEntries.map (Prod.map id Int64.toInt)
  componentState := record.componentEntries
  ctrl := ctrlEntries record.ctrl

/-- The blocks are read. -/
theorem foldlM_blockFields {record : TelemetryRecord} {sessionId : List Char} (h : Plain record sessionId)
    (valid : Dict Bool) :
    record.blockFields.foldlM readToken { sensorValid := valid } = some (blocksOf record.asRead) := by
  have hplan : PlainText record.ctrl.spelled.plan := plainText_textOr h.plan (by decide)
  have htune : PlainText record.ctrl.spelled.tune := plainText_textOr h.tune (by decide)
  unfold TelemetryRecord.blockFields blocksOf
  rw [componentEntries_asRead]
  refine foldlM_cons_of_some (readToken_resistances _ rfl _) ?_
  refine foldlM_cons_of_some (readToken_phase _ _) ?_
  refine foldlM_cons_of_some (readToken_mode _ _) ?_
  refine foldlM_cons_of_some (readToken_status _ _) ?_
  refine foldlM_cons_of_some (readToken_valid _ _) ?_
  refine foldlM_cons_of_some (readToken_ages _ _) ?_
  refine foldlM_cons_of_some (readToken_components _ _) ?_
  refine foldlM_cons_of_some (readToken_ctrl _ hplan htune) ?_
  rfl

/-- The motors and the stamp are read. -/
theorem foldlM_tail {record : TelemetryRecord} {sessionId : List Char} (h : Plain record sessionId)
    (hcount : record.steppers.length ≤ 2 ^ 31) (age : ℕ) {s : Sections} (hnone : s.indexedSteppers = []) :
    (record.stepperFields ++ [ageField age]).foldlM readToken s =
      some { s with indexedSteppers := snapshotsOf record.asRead.steppers, txAgeS := some ⟨false, doubleOf age⟩ } := by
  have hsteppers : snapshotsOf record.asRead.steppers =
      record.steppers.zipIdx.map fun entry => ((entry.2 : ℤ), snapshotOf entry.1.asRead) := by
    unfold snapshotsOf TelemetryRecord.asRead
    rw [List.zipIdx_map, List.map_map]
    rfl
  have hmotors := @foldlM_stepperFields record.steppers h.motors 0 (by omega) s (by simp [hnone])
  rw [hnone, List.nil_append, ← hsteppers] at hmotors
  unfold TelemetryRecord.stepperFields
  rw [List.foldlM_append, hmotors]
  exact foldlM_cons_of_some (readToken_ageField _ _) rfl

/-- A field found behind others that are not the one. -/
theorem findIdx?_append_cons {α : Type} {p : α → Bool} {front back : List α} {item : α}
    (hfront : ∀ other ∈ front, p other = false) (hitem : p item = true) :
    (front ++ item :: back).findIdx? p = some front.length := by
  induction front with
  | nil => simp [List.findIdx?_cons, hitem]
  | cons other front ih =>
    obtain ⟨hother, hrest⟩ := List.forall_mem_cons.mp hfront
    rw [List.cons_append, List.findIdx?_cons, hother, ih hrest]
    rfl

/-- Numbers do not begin like the field of the heaters. -/
theorem startsWith_heater {text : List Char} (h : ∀ c ∈ text, isNumberChar c = true) :
    startsWith "HEATER_DUTY=" text = false := by
  cases text with
  | nil => rfl
  | cons c rest =>
    have hc : ('H' == c) = false := by
      refine beq_eq_false_iff_ne.mpr ?_
      rintro rfl
      exact absurd (h 'H' List.mem_cons_self) (by decide)
    exact congrArg (· && _) hc

/-- The fields in front of the heaters. -/
def frontFields (record : TelemetryRecord) (sessionId : List Char) : List (List Char) :=
  record.headFields sessionId ++ record.sensors.sampleTempsC.map (showFixed 2)

/-- The field of the heaters is the first that begins like it, unless a text in front of it does. -/
theorem findIdx?_heater {record : TelemetryRecord} {sessionId : List Char}
    (hsession : startsWith "HEATER_DUTY=" sessionId = false)
    (htime : startsWith "HEATER_DUTY=" record.sensors.timestampUtc = false) (back : List (List Char)) :
    (frontFields record sessionId ++ record.heaterField :: back).findIdx? (startsWith "HEATER_DUTY=") =
      some (frontFields record sessionId).length := by
  have hfixed (value : Double) : startsWith "HEATER_DUTY=" (showFixed 2 value) = false :=
    startsWith_heater fun _ hc => showFixed_chars hc
  refine findIdx?_append_cons ?_ rfl
  simp only [frontFields, TelemetryRecord.headFields, List.forall_mem_append, List.forall_mem_cons, List.forall_mem_map]
  refine ⟨⟨rfl, hsession, startsWith_heater fun c hc => by simp [isNumberChar, showNat_digits hc], htime, ?_, hfixed _,
    hfixed _, hfixed _, fun _ hmem => absurd hmem List.not_mem_nil⟩, fun value _ => hfixed value⟩
  cases record.sensors.rtcValid with
  | true => rfl
  | false => rfl

/-- The duties of the heaters are read back. -/
theorem mapM_heaterDuty (duties : List Double) :
    (((bars (duties.map (showFixed 3))).splitOn '|').filter (· ≠ [])).mapM float = some (duties.map (rounded 3)) := by
  cases duties with
  | nil => rfl
  | cons first rest =>
    have hne : (first :: rest).map (showFixed 3) ≠ [] := List.cons_ne_nil _ _
    have hplain : ∀ text ∈ (first :: rest).map (showFixed 3), '|' ∉ text := by
      intro text htext
      obtain ⟨value, -, rfl⟩ := List.mem_map.mp htext
      exact (plainText_showFixed 3 value).2
    have hfilter : ((first :: rest).map (showFixed 3)).filter (· ≠ []) = (first :: rest).map (showFixed 3) := by
      refine List.filter_eq_self.mpr fun text htext => ?_
      obtain ⟨value, -, rfl⟩ := List.mem_map.mp htext
      exact decide_eq_true (showFixed_ne (by decide) value).1
    rw [splitOn_bars hne hplain, hfilter]
    exact mapM_map_of_some (float_showFixed (by decide)) _

/-- The motors are in the order of their ids. -/
theorem mergeSort_snapshotsOf (steppers : List StepperStatus) :
    (snapshotsOf steppers).mergeSort (fun one other => decide (one.1 ≤ other.1)) = snapshotsOf steppers := by
  refine List.mergeSort_of_pairwise ?_
  unfold snapshotsOf
  rw [List.pairwise_map]
  have hsorted : List.Pairwise (· < ·) ((steppers.zipIdx).map Prod.snd) := by
    rw [List.zipIdx_map_snd]
    exact List.pairwise_lt_range'
  refine (List.pairwise_map.mp hsorted).imp fun hlt => ?_
  have hle := Nat.le_of_lt hlt
  exact decide_eq_true (Int.ofNat_le.mpr hle)

/-- The first motor of a packet is the first of the record. -/
theorem steppersOf_eq {s : Sections} {steppers : List StepperStatus} (h : s.indexedSteppers = snapshotsOf steppers)
    (hlegacy : s.legacyStepper = none) : steppersOf s = snapshotsOf steppers := by
  unfold steppersOf
  rw [h, hlegacy]
  split
  case isTrue => exact mergeSort_snapshotsOf steppers
  case isFalse hempty => exact (not_not.mp hempty).symm

/-- The first snapshot is that of the first motor. -/
theorem head?_snapshotsOf (steppers : List StepperStatus) :
    (snapshotsOf steppers).head?.map (·.2) = steppers.head?.map snapshotOf := by
  cases steppers with
  | nil => rfl
  | cons st steppers => rfl

/-- Every phase has a name. -/
theorem phaseName_ne_nil (phase : MissionPhase) : phaseName phase ≠ [] := by
  cases phase with
  | _ => decide

/-- The status has words. -/
theorem toStatusBitfield_ne_nil (flags : StatusFlags) : toStatusBitfield flags ≠ [] := by
  unfold toStatusBitfield statusWords bars
  rw [List.map_cons, List.map_cons, Lines.intercalate_cons]
  exact List.append_ne_nil_of_right_ne_nil _ (List.cons_ne_nil _ _)

/-- A frame is read as the record it was made of. -/
theorem parseTelemetryCsv_frame {record : TelemetryRecord} {sessionId : List Char} (h : Plain record sessionId)
    (hsession : startsWith "HEATER_DUTY=" sessionId = false)
    (htime : startsWith "HEATER_DUTY=" record.sensors.timestampUtc = false)
    (hcount : record.steppers.length ≤ 2 ^ 31) (queuedEpochS nowEpochS : ℤ) :
    parseTelemetryCsv (tagFrameForTransmit (record.serializeTelemetryDataFrame sessionId) queuedEpochS nowEpochS) =
      some (packetOf record.asRead sessionId (frameAge queuedEpochS nowEpochS)) := by
  let age := frameAge queuedEpochS nowEpochS
  let front := frontFields record sessionId
  let back := record.blockFields ++ (record.stepperFields ++ [ageField age])
  have hparts : parts (tagFrameForTransmit (record.serializeTelemetryDataFrame sessionId) queuedEpochS nowEpochS) =
      front ++ record.heaterField :: back := by
    rw [parts_frame h]
    simp [TelemetryRecord.fields, front, back, age, frontFields]
  have hlength : ¬ (front ++ record.heaterField :: back).length < 11 := by
    simp [front, back, frontFields, TelemetryRecord.headFields, TelemetryRecord.blockFields]
    omega
  have hkind : part (front ++ record.heaterField :: back) 0 = "DATA".toList := rfl
  have hseq : int (part (front ++ record.heaterField :: back) 2) = some (record.seq.toNat : ℤ) :=
    int_showCount record.seq
  have hrtc : int (part (front ++ record.heaterField :: back) 4) = some (if record.sensors.rtcValid then 1 else 0) := by
    have hbit : part (front ++ record.heaterField :: back) 4 = bit record.sensors.rtcValid := rfl
    rw [hbit]
    cases record.sensors.rtcValid with
    | true => decide
    | false => decide
  have hfloat (value : Double) : float (showFixed 2 value) = some (rounded 2 value) := float_showFixed (by decide) value
  have htemp : float (part (front ++ record.heaterField :: back) 5) = some (rounded 2 record.sensors.ambientTempC) :=
    hfloat _
  have hpressure : float (part (front ++ record.heaterField :: back) 6) =
      some (rounded 2 record.sensors.ambientPressureMbar) := hfloat _
  have huv : float (part (front ++ record.heaterField :: back) 7) = some (rounded 2 record.sensors.uv) := hfloat _
  have hindex : (front ++ record.heaterField :: back).findIdx? (startsWith "HEATER_DUTY=") = some front.length :=
    findIdx?_heater hsession htime back
  have hsamples : (((front ++ record.heaterField :: back).take front.length).drop 8).mapM float =
      some (record.sensors.sampleTempsC.map (rounded 2)) := by
    rw [List.take_left]
    exact mapM_map_of_some hfloat _
  have hheater : part (front ++ record.heaterField :: back) front.length = record.heaterField := by
    simp [part]
  have hduties : (((afterEquals record.heaterField).splitOn '|').filter (· ≠ [])).mapM float =
      some (record.heaterDuty.map (rounded 3)) := mapM_heaterDuty record.heaterDuty
  have hdrop : (front ++ record.heaterField :: back).drop (front.length + 1) = back := by simp
  have hback (valid : Dict Bool) : back.foldlM readToken { sensorValid := valid } =
      some { blocksOf record.asRead with
        indexedSteppers := snapshotsOf record.asRead.steppers
        txAgeS := some ⟨false, doubleOf age⟩ } := by
    rw [List.foldlM_append, foldlM_blockFields h]
    exact foldlM_tail h hcount age rfl
  have hnamed : ¬ ((blocksOf record.asRead).phase = [] ∨ (blocksOf record.asRead).status = []) :=
    not_or.mpr ⟨phaseName_ne_nil _, toStatusBitfield_ne_nil _⟩
  unfold parseTelemetryCsv
  rw [hparts]
  simp only [hlength, hkind, hseq, hrtc, htemp, hpressure, huv, hindex, hsamples, hheater, hduties, hdrop, hback,
    if_false, ne_eq, not_true_eq_false, Option.bind_eq_bind, Option.bind_some]
  rw [if_neg hnamed, steppersOf_eq rfl rfl, head?_snapshotsOf]
  rfl

end Coatheal.Telemetry
