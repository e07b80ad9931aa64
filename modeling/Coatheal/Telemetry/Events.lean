import Coatheal.Telemetry.RoundTrip

/-!
# Events on the wire

A heating cycle and a pull are sent as EVT lines, which are not stamped when they
go out. They are read back, and every line that is made of a record or an event is
answered with the ACK that the onboard expects of it.
-/

namespace Coatheal.Telemetry

open Library Library.Text Library.PyText Ground

/-- `HeatingCycleEvent`. -/
structure HeatingCycleEvent where
  cycleId : UInt32
  startTs : List Char
  peakTempC : Double
  holdDurationS : Double
  cooldownRateCPerS : Double
  specimenIndex : UInt64

/-- `HeatingPullEvent`. -/
structure HeatingPullEvent where
  pullId : UInt32
  motorId : Int32
  startTs : List Char
  stepsMoved : Int64
  holdS : Double
  samples : List UInt64
  microstep : Int32

/-- The fields of a heating cycle. -/
def HeatingCycleEvent.fields (event : HeatingCycleEvent) (sessionId : List Char) : List (List Char) :=
  ["EVT".toList, "CYCLE".toList, sessionId, showNat event.cycleId.toNat, event.startTs, showFixed 2 event.peakTempC,
    showFixed 2 event.holdDurationS, showFixed 4 event.cooldownRateCPerS, showNat event.specimenIndex.toNat]

/-- `SerializeHeatingCycleEvent`. -/
def serializeHeatingCycleEvent (event : HeatingCycleEvent) (sessionId : List Char) : List Char :=
  [','].intercalate (event.fields sessionId)

/-- The specimens of a pull, or a dash. -/
def showSamples (samples : List UInt64) : List Char :=
  if samples = [] then "-".toList else bars (samples.map fun sample => showNat sample.toNat)

/-- The fields of a pull. -/
def HeatingPullEvent.fields (event : HeatingPullEvent) (sessionId : List Char) : List (List Char) :=
  ["EVT".toList, "PULL".toList, sessionId, showNat event.pullId.toNat, showInt event.motorId.toInt, event.startTs,
    showInt64 event.stepsMoved, showFixed 2 event.holdS, showSamples event.samples, showInt event.microstep.toInt]

/-- `SerializeTelemetryPullEventFrame`. -/
def serializeTelemetryPullEventFrame (event : HeatingPullEvent) (sessionId : List Char) : List Char :=
  [','].intercalate (event.fields sessionId)

/-- A heating cycle with its decimals rounded as they are printed. -/
def cycleOf (event : HeatingCycleEvent) (sessionId : List Char) : Ground.HeatingCycleEvent where
  sessionId := sessionId
  cycleId := event.cycleId.toNat
  startTs := event.startTs
  peakTempC := rounded 2 event.peakTempC
  holdDurationS := rounded 2 event.holdDurationS
  cooldownRateCPerS := rounded 4 event.cooldownRateCPerS
  specimenIndex := event.specimenIndex.toNat

/-- A pull with its decimals rounded as they are printed. -/
def pullOf (event : HeatingPullEvent) (sessionId : List Char) : PullEvent where
  sessionId := sessionId
  pullId := event.pullId.toNat
  motorId := event.motorId.toInt
  startTs := event.startTs
  stepsMoved := event.stepsMoved.toInt
  holdS := rounded 2 event.holdS
  samples := event.samples.map fun sample => (sample.toNat : ℤ)
  microstep := some event.microstep.toInt

/-- An event is not stamped. -/
theorem tagFrameForTransmit_event (rest : List (List Char)) (queuedEpochS nowEpochS : ℤ) :
    tagFrameForTransmit ([','].intercalate ("EVT".toList :: rest)) queuedEpochS nowEpochS =
      [','].intercalate ("EVT".toList :: rest) := by
  have hdata : "DATA,".toList.isPrefixOf ([','].intercalate ("EVT".toList :: rest)) = false := by
    cases rest with
    | nil => rfl
    | cons next rest =>
      rw [Lines.intercalate_cons]
      rfl
  rw [tagFrameForTransmit, hdata, if_neg Bool.false_ne_true]

/-- A count of 32 bits is read back. -/
theorem int_showCount32 (value : UInt32) : int (showNat value.toNat) = some (value.toNat : ℤ) :=
  @int_showInt_of_lt value.toNat (by have := value.toNat_lt; omega)

/-- The fields of a heating cycle with plain texts are fields. -/
theorem HeatingCycleEvent.field_of_mem {event : HeatingCycleEvent} {sessionId : List Char} (hsession : Field sessionId)
    (htime : Field event.startTs) : ∀ text ∈ event.fields sessionId, Field text := by
  simp only [HeatingCycleEvent.fields, List.forall_mem_cons]
  exact ⟨by decide, by decide, hsession, (plainText_showNat _).1, htime, (plainText_showFixed _ _).1,
    (plainText_showFixed _ _).1, (plainText_showFixed _ _).1, (plainText_showNat _).1,
    fun _ hmem => absurd hmem List.not_mem_nil⟩

/-- A heating cycle is read as it was sent. -/
theorem parseHeatingCycleEvent_serialize {event : HeatingCycleEvent} {sessionId : List Char} (hsession : Field sessionId)
    (htime : Field event.startTs) :
    parseHeatingCycleEvent (serializeHeatingCycleEvent event sessionId) = some (cycleOf event sessionId) := by
  have hparts : parts (serializeHeatingCycleEvent event sessionId) = event.fields sessionId :=
    parts_intercalate (List.cons_ne_nil _ _) (HeatingCycleEvent.field_of_mem hsession htime)
  have hkind : ¬ ((event.fields sessionId).length < 9 ∨ part (event.fields sessionId) 0 ≠ "EVT".toList ∨
      part (event.fields sessionId) 1 ≠ "CYCLE".toList) := by
    simp [HeatingCycleEvent.fields, part]
  have hcycle : int (part (event.fields sessionId) 3) = some (event.cycleId.toNat : ℤ) := int_showCount32 _
  have hpeak : float (part (event.fields sessionId) 5) = some (rounded 2 event.peakTempC) := float_showFixed (by decide) _
  have hhold : float (part (event.fields sessionId) 6) = some (rounded 2 event.holdDurationS) :=
    float_showFixed (by decide) _
  have hrate : float (part (event.fields sessionId) 7) = some (rounded 4 event.cooldownRateCPerS) :=
    float_showFixed (by decide) _
  have hspecimen : int (part (event.fields sessionId) 8) = some (event.specimenIndex.toNat : ℤ) := int_showCount _
  unfold parseHeatingCycleEvent
  rw [hparts]
  simp only [hkind, hcycle, hpeak, hhold, hrate, hspecimen, if_false, Option.bind_eq_bind, Option.bind_some]
  rfl

/-- The specimens of a pull are plain. -/
theorem plainText_showSamples (samples : List UInt64) : Field (showSamples samples) := by
  unfold showSamples
  split
  · decide
  · refine field_bars fun text hmem => ?_
    obtain ⟨sample, -, rfl⟩ := List.mem_map.mp hmem
    exact (plainText_showNat _).1

/-- A printed count is neither empty nor a dash. -/
theorem showNat_ne (value : ℕ) : showNat value ≠ [] ∧ showNat value ≠ "-".toList := by
  refine ⟨showNat_ne_nil value, fun h => ?_⟩
  have hdash : '-' ∈ showNat value := by
    rw [h]
    exact List.mem_singleton_self '-'
  exact absurd (showNat_digits hdash) (by decide)

/-- The specimens of a pull are read back. -/
theorem parseSamples_showSamples (samples : List UInt64) :
    parseSamples (showSamples samples) = some (samples.map fun sample => (sample.toNat : ℤ)) := by
  cases samples with
  | nil => rfl
  | cons first rest =>
    let texts := (first :: rest).map fun sample => showNat sample.toNat
    have hplain : ∀ text ∈ texts, '|' ∉ text ∧ text ≠ [] := by
      intro text hmem
      obtain ⟨sample, -, rfl⟩ := List.mem_map.mp hmem
      exact ⟨(plainText_showNat _).2, showNat_ne_nil _⟩
    have hsplit : (bars texts).splitOn '|' = texts := splitOn_bars (List.cons_ne_nil _ _) fun text hmem => (hplain text hmem).1
    have hne : ¬ (bars texts = [] ∨ bars texts = "-".toList) := by
      rintro (hempty | hdash)
      · rw [hempty] at hsplit
        exact (showNat_ne first.toNat).1 (List.cons.inj hsplit).1.symm
      · rw [hdash] at hsplit
        exact (showNat_ne first.toNat).2 (List.cons.inj hsplit).1.symm
    have hfilter : texts.filter (· ≠ []) = texts :=
      List.filter_eq_self.mpr fun text hmem => decide_eq_true (hplain text hmem).2
    have hshow : showSamples (first :: rest) = bars texts := if_neg (List.cons_ne_nil _ _)
    rw [hshow, parseSamples, if_neg hne, hsplit, hfilter]
    exact mapM_map_of_some int_showCount _

/-- The fields of a pull with plain texts are fields. -/
theorem HeatingPullEvent.field_of_mem {event : HeatingPullEvent} {sessionId : List Char} (hsession : Field sessionId)
    (htime : Field event.startTs) : ∀ text ∈ event.fields sessionId, Field text := by
  simp only [HeatingPullEvent.fields, List.forall_mem_cons]
  exact ⟨by decide, by decide, hsession, (plainText_showNat _).1, (plainText_showInt _).1, htime,
    (plainText_showInt _).1, (plainText_showFixed _ _).1, plainText_showSamples _, (plainText_showInt _).1,
    fun _ hmem => absurd hmem List.not_mem_nil⟩

/-- A pull is read as it was sent. -/
theorem parsePullEvent_serialize {event : HeatingPullEvent} {sessionId : List Char} (hsession : Field sessionId)
    (htime : Field event.startTs) :
    parsePullEvent (serializeTelemetryPullEventFrame event sessionId) = some (pullOf event sessionId) := by
  have hparts : parts (serializeTelemetryPullEventFrame event sessionId) = event.fields sessionId :=
    parts_intercalate (List.cons_ne_nil _ _) (HeatingPullEvent.field_of_mem hsession htime)
  have hkind : ¬ ((event.fields sessionId).length < 9 ∨ part (event.fields sessionId) 0 ≠ "EVT".toList ∨
      part (event.fields sessionId) 1 ≠ "PULL".toList) := by
    simp [HeatingPullEvent.fields, part]
  have hsamples : parseSamples (part (event.fields sessionId) 8) =
      some (event.samples.map fun sample => (sample.toNat : ℤ)) := parseSamples_showSamples _
  have hpull : int (part (event.fields sessionId) 3) = some (event.pullId.toNat : ℤ) := int_showCount32 _
  have hmotor : int (part (event.fields sessionId) 4) = some event.motorId.toInt := int_showInt32 _
  have hsteps : int (part (event.fields sessionId) 6) = some event.stepsMoved.toInt := int_showInt64 _
  have hhold : float (part (event.fields sessionId) 7) = some (rounded 2 event.holdS) := float_showFixed (by decide) _
  have hmicrostep : parseMicrostep (part (event.fields sessionId) 9) = some (some event.microstep.toInt) := by
    have hread := int_showInt32 event.microstep
    have hempty : int [] = none := by decide
    have hne : showInt event.microstep.toInt ≠ [] := by
      intro h
      rw [h, hempty] at hread
      exact Option.some_ne_none _ hread.symm
    have hpart : part (event.fields sessionId) 9 = showInt event.microstep.toInt := rfl
    rw [hpart, parseMicrostep, if_neg hne, hread]
    rfl
  unfold parsePullEvent
  rw [hparts]
  simp only [hkind, hsamples, hpull, hmotor, hsteps, hhold, hmicrostep, if_false, Option.bind_eq_bind,
    Option.bind_some]
  rfl

/-- What the onboard sends: a record that was queued, or an event. -/
inductive Message where
  | record (queued : TelemetryRecord) (queuedEpochS nowEpochS : ℤ)
  | cycle (event : HeatingCycleEvent)
  | pull (event : HeatingPullEvent)

namespace Message

/-- The line that goes out; only a record is stamped. -/
def line (sessionId : List Char) : Message → List Char
  | record queued queuedEpochS nowEpochS =>
    tagFrameForTransmit (queued.serializeTelemetryDataFrame sessionId) queuedEpochS nowEpochS
  | cycle event => tagFrameForTransmit (serializeHeatingCycleEvent event sessionId) 0 0
  | pull event => tagFrameForTransmit (serializeTelemetryPullEventFrame event sessionId) 0 0

/-- The texts of a message are fields. -/
def Plain (sessionId : List Char) : Message → Prop
  | record queued _ _ => Telemetry.Plain queued sessionId
  | cycle event => Field sessionId ∧ Field event.startTs
  | pull event => Field sessionId ∧ Field event.startTs

/-- The texts of a record do not begin as the field of the heaters does, and the motors have numbers. -/
def Distinct (sessionId : List Char) : Message → Prop
  | record queued _ _ =>
    startsWith "HEATER_DUTY=" sessionId = false ∧
      startsWith "HEATER_DUTY=" queued.sensors.timestampUtc = false ∧ queued.steppers.length ≤ 2 ^ 31
  | _ => True

/-- What a receiver is to make of a message: the GUI knows no heating cycles. -/
def frame (receiver : Receiver) (sessionId : List Char) : Message → Frame
  | record queued queuedEpochS nowEpochS =>
    .telemetry (packetOf queued.asRead sessionId (frameAge queuedEpochS nowEpochS))
  | cycle event => if receiver = .server then .cycle (cycleOf event sessionId) else .unparseable
  | pull event => .pull (pullOf event sessionId)

end Message

/-- The first three fields of a line of more than three, as they are cut out of it. -/
theorem exists_getlines {kind first second : List Char} {rest : List (List Char)} (hne : rest ≠ [])
    (h : ∀ text ∈ kind :: first :: second :: rest, Field text) :
    ∃ more, getlines ',' ([','].intercalate (kind :: first :: second :: rest)) = kind :: first :: second :: more := by
  have hkind : ',' ∉ kind := (h kind (by simp)).1
  have hfirst : ',' ∉ first := (h first (by simp)).1
  have hsecond : ',' ∉ second := (h second (by simp)).1
  cases rest with
  | nil => exact absurd rfl hne
  | cons next rest =>
    refine ⟨getlines ',' ([','].intercalate (next :: rest)), ?_⟩
    rw [Lines.intercalate_cons, Lines.intercalate_cons, Lines.intercalate_cons, getlines_append hkind,
      getlines_append hfirst, getlines_append hsecond]

section

variable {receiver : Receiver} {inflate : List Char → Option (List Char)} {wire : List Char}
  {first second : List Char} {rest : List (List Char)}

/-- The two sides agree on a line of telemetry that is made of fields. -/
theorem agrees_data {seq : UInt64} (hne : rest ≠ [])
    (h : ∀ text ∈ "DATA".toList :: first :: showNat seq.toNat :: rest, Field text) (hfirst : first ≠ [])
    (hwire : Carries inflate wire ([','].intercalate ("DATA".toList :: first :: showNat seq.toNat :: rest))) :
    receiver.Agrees inflate wire ([','].intercalate ("DATA".toList :: first :: showNat seq.toNat :: rest)) := by
  obtain ⟨more, hpieces⟩ := exists_getlines hne h
  have hparts := parts_intercalate (List.cons_ne_nil _ _) h
  have hraw : rawHeader (strip ([','].intercalate ("DATA".toList :: first :: showNat seq.toNat :: rest))) = true := by
    unfold rawHeader
    rw [parts_strip, hparts]
    simp [part, hfirst, isDigits_showNat]
  have hplain : isPlainNumber (showNat seq.toNat) = true := by
    unfold isPlainNumber
    rw [stoull_showNat, Option.map_some]
    exact decide_eq_true rfl
  have hstrip : ∀ text ∈ "DATA".toList :: first :: showNat seq.toNat :: rest, strip text = text :=
    fun text hmem => (h text hmem).2
  refine (Receiver.Identifies.agrees_data (Or.inr hraw) hwire hpieces ?_ ?_ ?_).mpr ⟨hfirst, hstrip first (by simp), hplain⟩
  · rw [hparts]
    rfl
  · rw [hparts, hstrip first (by simp)]
    rfl
  · rw [hparts, hstrip (showNat seq.toNat) (by simp)]
    rfl

/-- The two sides agree on an event that is made of fields. -/
theorem agrees_event (hne : rest ≠ []) (h : ∀ text ∈ "EVT".toList :: first :: second :: rest, Field text)
    (hsecond : second ≠ [])
    (hwire : Carries inflate wire ([','].intercalate ("EVT".toList :: first :: second :: rest))) :
    receiver.Agrees inflate wire ([','].intercalate ("EVT".toList :: first :: second :: rest)) := by
  obtain ⟨more, hpieces⟩ := exists_getlines hne h
  have hparts := parts_intercalate (List.cons_ne_nil _ _) h
  have hraw : rawHeader (strip ([','].intercalate ("EVT".toList :: first :: second :: rest))) = true := by
    unfold rawHeader
    rw [parts_strip, hparts]
    simp [part, hsecond]
  have hstrip : strip second = second := (h second (by simp)).2
  refine (Receiver.Identifies.agrees_event (Or.inr hraw) hwire hpieces ?_ ?_).mpr ⟨hsecond, hstrip⟩
  · rw [hparts]
    rfl
  · rw [hparts, hstrip]
    rfl

end

/-- An outgoing line is made of fields; the first two or three tell what it is. -/
theorem Message.exists_fields {message : Message} {sessionId : List Char} (h : message.Plain sessionId) :
    ∃ kind first second rest, message.line sessionId = [','].intercalate (kind :: first :: second :: rest) ∧
      rest ≠ [] ∧ (∀ text ∈ kind :: first :: second :: rest, Field text) ∧
      ((kind = "DATA".toList ∧ first = sessionId ∧ ∃ seq : UInt64, second = showNat seq.toNat) ∨
        kind = "EVT".toList ∧ second = sessionId) := by
  cases message with
  | record queued queuedEpochS nowEpochS =>
    have hline := tagFrameForTransmit_serialize queued sessionId queuedEpochS nowEpochS
    exact ⟨_, _, _, _, hline, List.append_ne_nil_of_right_ne_nil _ (List.cons_ne_nil _ _), field_of_mem_frame h _,
      Or.inl ⟨rfl, rfl, queued.seq, rfl⟩⟩
  | cycle event =>
    have hline : (Message.cycle event).line sessionId = [','].intercalate (event.fields sessionId) :=
      tagFrameForTransmit_event _ 0 0
    exact ⟨_, _, _, _, hline, List.cons_ne_nil _ _, HeatingCycleEvent.field_of_mem h.1 h.2, Or.inr ⟨rfl, rfl⟩⟩
  | pull event =>
    have hline : (Message.pull event).line sessionId = [','].intercalate (event.fields sessionId) :=
      tagFrameForTransmit_event _ 0 0
    exact ⟨_, _, _, _, hline, List.cons_ne_nil _ _, HeatingPullEvent.field_of_mem h.1 h.2, Or.inr ⟨rfl, rfl⟩⟩

/-- A line that is made of fields has no white space at its ends. -/
theorem strip_intercalate {fields : List (List Char)} (h : ∀ text ∈ fields, Field text) :
    strip ([','].intercalate fields) = [','].intercalate fields := by
  induction fields with
  | nil => rfl
  | cons field fields ih =>
    rw [List.forall_mem_cons] at h
    cases fields with
    | nil => simpa using h.1.2
    | cons next rest =>
      have hcomma : strip [','] = [','] := by decide
      rw [Lines.intercalate_cons]
      exact strip_append h.1.2 (strip_append hcomma (ih h.2))

/-- A receiver gets an outgoing line as it was sent, whether it was compressed or not. -/
theorem Message.frameText_line {message : Message} {inflate : List Char → Option (List Char)} {sessionId wire : List Char}
    (h : message.Plain sessionId) (hne : sessionId ≠ []) (hwire : Carries inflate wire (message.line sessionId)) :
    frameText inflate wire = some (message.line sessionId) := by
  obtain ⟨kind, first, second, rest, hline, hrest, hfield, hkind⟩ := Message.exists_fields h
  have hraw : rawHeader (strip (message.line sessionId)) = true := by
    have hparts := parts_intercalate (List.cons_ne_nil _ _) hfield
    rw [hline]
    unfold rawHeader
    rw [parts_strip, hparts]
    rcases hkind with ⟨rfl, rfl, seq, rfl⟩ | ⟨rfl, rfl⟩
    · simp [part, hne, isDigits_showNat]
    · simp [part, hne]
  have hidentifies : Receiver.gui.Identifies (strip (message.line sessionId)) := Or.inr hraw
  rw [frameText_of_carries hwire hidentifies, hline, strip_intercalate hfield]

/-- Each kind of message is read by its parser. -/
theorem Message.read_line {message : Message} {receiver : Receiver} {sessionId : List Char} (h : message.Plain sessionId)
    (hdistinct : message.Distinct sessionId) : receiver.read (message.line sessionId) = message.frame receiver sessionId := by
  cases message with
  | record queued queuedEpochS nowEpochS =>
    obtain ⟨hsession, htime, hcount⟩ := hdistinct
    have hread := parseTelemetryCsv_frame h hsession htime hcount queuedEpochS nowEpochS
    have hline : (Message.record queued queuedEpochS nowEpochS).line sessionId =
        [','].intercalate (queued.fields sessionId ++ [ageField (frameAge queuedEpochS nowEpochS)]) :=
      tagFrameForTransmit_serialize queued sessionId queuedEpochS nowEpochS
    have hcycle : startsWith "EVT,CYCLE," ((Message.record queued queuedEpochS nowEpochS).line sessionId) = false := by
      rw [hline]
      simp only [TelemetryRecord.fields, TelemetryRecord.headFields, List.cons_append, Lines.intercalate_cons]
      rfl
    have hpull : startsWith "EVT,PULL," ((Message.record queued queuedEpochS nowEpochS).line sessionId) = false := by
      rw [hline]
      simp only [TelemetryRecord.fields, TelemetryRecord.headFields, List.cons_append, Lines.intercalate_cons]
      rfl
    rw [Receiver.read, hcycle, hpull, if_neg (by simp), if_neg Bool.false_ne_true]
    exact congrArg (Frame.ofOption Frame.telemetry) hread
  | cycle event =>
    have hline : (Message.cycle event).line sessionId = serializeHeatingCycleEvent event sessionId :=
      tagFrameForTransmit_event _ 0 0
    have hparts : parts (serializeHeatingCycleEvent event sessionId) = event.fields sessionId :=
      parts_intercalate (List.cons_ne_nil _ _) (HeatingCycleEvent.field_of_mem h.1 h.2)
    have hcycle : startsWith "EVT,CYCLE," (serializeHeatingCycleEvent event sessionId) = true := by
      simp only [serializeHeatingCycleEvent, HeatingCycleEvent.fields, Lines.intercalate_cons]
      rfl
    have hpull : startsWith "EVT,PULL," (serializeHeatingCycleEvent event sessionId) = false := by
      simp only [serializeHeatingCycleEvent, HeatingCycleEvent.fields, Lines.intercalate_cons]
      rfl
    rw [hline, Receiver.read, hcycle, hpull, Message.frame]
    cases receiver with
    | server => exact congrArg (Frame.ofOption Frame.cycle) (parseHeatingCycleEvent_serialize h.1 h.2)
    | gui =>
      have hnone : parseTelemetryCsv (serializeHeatingCycleEvent event sessionId) = none := by
        unfold parseTelemetryCsv
        rw [hparts]
        rfl
      rw [hnone]
      rfl
  | pull event =>
    have hline : (Message.pull event).line sessionId = serializeTelemetryPullEventFrame event sessionId :=
      tagFrameForTransmit_event _ 0 0
    have hcycle : startsWith "EVT,CYCLE," (serializeTelemetryPullEventFrame event sessionId) = false := by
      simp only [serializeTelemetryPullEventFrame, HeatingPullEvent.fields, Lines.intercalate_cons]
      rfl
    have hpull : startsWith "EVT,PULL," (serializeTelemetryPullEventFrame event sessionId) = true := by
      simp only [serializeTelemetryPullEventFrame, HeatingPullEvent.fields, Lines.intercalate_cons]
      rfl
    rw [hline, Receiver.read, hcycle, hpull, if_neg (by simp), if_pos rfl, parsePullEvent_serialize h.1 h.2]
    rfl

/-- Each receiver reads what was sent, whether the line was compressed or not; the GUI takes a heating cycle for a
line that it cannot read. -/
theorem Message.read_wire {message : Message} {receiver : Receiver} {inflate : List Char → Option (List Char)}
    {sessionId wire : List Char} (h : message.Plain sessionId) (hne : sessionId ≠ []) (hdistinct : message.Distinct sessionId)
    (hwire : Carries inflate wire (message.line sessionId)) :
    (frameText inflate wire).map receiver.read = some (message.frame receiver sessionId) := by
  rw [Message.frameText_line h hne hwire, Option.map_some, Message.read_line h hdistinct]

/-- A record of two samples, of which one has a resistance, with a motor that holds. -/
def holdingRecord : TelemetryRecord where
  seq := 7
  phase := .float
  mode := .run
  sensors := {
    rtcValid := true
    timestampUtc := "2026-10-05T12:00:00Z".toList
    ambientTempC := ⟨true, .finite (55 / 4)⟩
    ambientPressureMbar := ⟨false, .finite 7⟩
    uv := ⟨false, .nan⟩
    sampleTempsC := [⟨false, .finite (81 / 4)⟩, ⟨false, .nan⟩]
    ambientTempValid := true
    ambientPressureValid := true
    uvValid := false
    sampleTempValid := [true]
    ambientTempAgeMs := 120
    ambientPressureAgeMs := 120
    uvAgeMs := -1
    sampleTempAgeMs := [40]
    dps310 := .ok
    ads1115 := .failed
    sequentRtd := .degraded
    sampleResistanceOhm := [⟨false, .finite (431 / 4)⟩, ⟨false, .finite 0⟩] }
  heaterDuty := [⟨false, .finite (3 / 4)⟩]
  status := ⟨true, true, true, true, true, true, true, true, true, true, true, true, true, false, false, false, true⟩
  pwmState := .ok
  ctrl := ⟨false, ⟨false, .finite 0⟩, ⟨false, .finite (3 / 4)⟩, ⟨false, .finite 0⟩, false, 1, 3, [], "H4".toList, true⟩
  steppers := [⟨-800, -800, ⟨false, .finite 50⟩, 4, ⟨false, .finite 500⟩, ⟨false, .finite (4 / 5)⟩, 1,
    ⟨true, .finite 1⟩, ⟨true, .finite 1⟩, true, true, false, true, ⟨false, .finite (31 / 4)⟩, 800, 0,
    "phase:FLOAT_HOLD".toList, 0, false, true, [], "run".toList⟩]

/-- A message of the record of a motor that holds. -/
theorem Message.read_wire_holdingRecord :
    (frameText (fun _ => none) ((Message.record holdingRecord 1000 1003).line "COATHEAL-1".toList)).map Receiver.gui.read =
      some ((Message.record holdingRecord 1000 1003).frame .gui "COATHEAL-1".toList) := by
  have hplain : Telemetry.Plain holdingRecord "COATHEAL-1".toList := by
    refine ⟨by decide, by decide, by decide, by decide, fun st hst => ?_⟩
    obtain rfl := List.mem_singleton.mp hst
    exact ⟨by decide, by decide, by decide⟩
  exact @Message.read_wire (.record holdingRecord 1000 1003) .gui (fun _ => none) _ _ hplain (by decide)
    ⟨rfl, rfl, by decide⟩ (Or.inl rfl)

/-- Every line that is sent of a record or of an event, plain or compressed, is answered by the ground station, also
where it cannot parse it, with the ACK that the onboard expects and takes. -/
theorem Message.agrees {message : Message} {receiver : Receiver} {inflate : List Char → Option (List Char)}
    {sessionId wire : List Char} (h : message.Plain sessionId) (hne : sessionId ≠ [])
    (hwire : Carries inflate wire (message.line sessionId)) :
    receiver.Agrees inflate wire (message.line sessionId) := by
  obtain ⟨kind, first, second, rest, hline, hrest, hfield, hkind⟩ := Message.exists_fields h
  rw [hline] at hwire ⊢
  rcases hkind with ⟨rfl, rfl, seq, rfl⟩ | ⟨rfl, rfl⟩
  · exact agrees_data hrest hfield hne hwire
  · exact agrees_event hrest hfield hne hwire

/-- A pull that is sent compressed. -/
theorem Message.agrees_pull :
    Receiver.gui.Agrees (fun text => if text = "Z1,12,bmVl".toList then
        some ((Message.pull ⟨3, 0, "t".toList, -120, ⟨false, .finite 4⟩, [], 8⟩).line "pi".toList) else none)
      "Z1,12,bmVl".toList ((Message.pull ⟨3, 0, "t".toList, -120, ⟨false, .finite 4⟩, [], 8⟩).line "pi".toList) := by
  have hplain : (Message.pull ⟨3, 0, "t".toList, -120, ⟨false, .finite 4⟩, [], 8⟩).Plain "pi".toList :=
    ⟨by decide, by decide⟩
  exact Message.agrees hplain (by decide) (Or.inr ⟨by decide, if_pos (by decide)⟩)

end Coatheal.Telemetry
