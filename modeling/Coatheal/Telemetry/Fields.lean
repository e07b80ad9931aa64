import Coatheal.Ground.Acknowledgement
import Coatheal.Library.Lines
import Coatheal.Telemetry.Frame

/-!
# The fields of a frame

A text without commas and without white space at its ends stays a field when a
line is cut. Every field of a frame is one as soon as the texts of the record
are, and the ground station finds the fields the frame was made of.
-/

namespace Coatheal.Telemetry

open Library Library.Text Library.PyText Ground Sensors
open Library.Lines (intercalate_cons intercalate_concat)

/-- A text that stays a field when a line is cut at its commas. -/
def Field (text : List Char) : Prop := ',' ∉ text ∧ strip text = text

instance (text : List Char) : Decidable (Field text) := inferInstanceAs (Decidable (_ ∧ _))

/-- A field that may stand in a list: it has no bars either. -/
def PlainText (text : List Char) : Prop := Field text ∧ '|' ∉ text

instance (text : List Char) : Decidable (PlainText text) := inferInstanceAs (Decidable (_ ∧ _))

/-- Two texts without white space at their ends have none together. -/
theorem strip_append {front back : List Char} (hfront : strip front = front) (hback : strip back = back) :
    strip (front ++ back) = front ++ back := by
  obtain ⟨hfirst, hinner⟩ := ends_of_trim_eq_self hfront
  obtain ⟨hsecond, hlast⟩ := ends_of_trim_eq_self hback
  refine trim_eq_self_of_ends ?_ ?_
  · intro c hc
    rw [List.head?_append, Option.mem_def, Option.or_eq_some_iff] at hc
    rcases hc with hc | ⟨_, hc⟩
    · exact hfirst c hc
    · exact hsecond c hc
  · intro c hc
    rw [List.getLast?_append, Option.mem_def, Option.or_eq_some_iff] at hc
    rcases hc with hc | ⟨_, hc⟩
    · exact hlast c hc
    · exact hinner c hc

/-- Two fields together are a field. -/
theorem Field.append {front back : List Char} (hfront : Field front) (hback : Field back) : Field (front ++ back) := by
  refine ⟨fun hmem => ?_, strip_append hfront.2 hback.2⟩
  rcases List.mem_append.mp hmem with h | h
  · exact hfront.1 h
  · exact hback.1 h

/-- A character between two fields. -/
theorem Field.joined {c : Char} (hc : Field [c]) {front back : List Char} (hfront : Field front) (hback : Field back) :
    Field (front ++ c :: back) := hfront.append (hc.append hback)

/-- Fields with bars between them are a field. -/
theorem field_bars {values : List (List Char)} (h : ∀ value ∈ values, Field value) : Field (bars values) := by
  induction values with
  | nil => exact ⟨List.not_mem_nil, rfl⟩
  | cons value values ih =>
    have hvalue := h value List.mem_cons_self
    cases values with
    | nil => rwa [bars, List.intercalate_singleton]
    | cons next values =>
      rw [bars, intercalate_cons]
      exact Field.joined (by decide) hvalue (ih fun other hother => h other (List.mem_cons_of_mem value hother))

/-- Bars are found between values that have none. -/
theorem splitOn_bars {values : List (List Char)} (hne : values ≠ []) (h : ∀ value ∈ values, '|' ∉ value) :
    (bars values).splitOn '|' = values := List.splitOn_intercalate '|' h hne

/-- An entry whose key and value are found again. -/
structure PlainEntry (entry : List Char × List Char) : Prop where
  key : PlainText entry.1
  colon : ':' ∉ entry.1
  value : PlainText entry.2

/-- The pieces of a block have no bars. -/
theorem PlainEntry.notMem_bar {entry : List Char × List Char} (h : PlainEntry entry) :
    '|' ∉ entry.1 ++ ':' :: entry.2 := by
  intro hmem
  rcases List.mem_append.mp hmem with hkey | hrest
  · exact h.key.2 hkey
  · rcases List.mem_cons.mp hrest with heq | hvalue
    · exact absurd heq (by decide)
    · exact h.value.2 hvalue

/-- Entries with bars between them are a field. -/
theorem field_block {entries : List (List Char × List Char)} (h : ∀ entry ∈ entries, PlainEntry entry) :
    Field (block entries) := by
  refine field_bars fun value hvalue => ?_
  obtain ⟨entry, hentry, rfl⟩ := List.mem_map.mp hvalue
  exact Field.joined (by decide) (h entry hentry).key.1 (h entry hentry).value.1

/-- The pieces of a block are its entries. -/
theorem splitOn_block {entries : List (List Char × List Char)} (hne : entries ≠ [])
    (h : ∀ entry ∈ entries, PlainEntry entry) :
    (block entries).splitOn '|' = entries.map fun entry => entry.1 ++ ':' :: entry.2 := by
  refine splitOn_bars (mt List.map_eq_nil_iff.mp hne) fun value hvalue => ?_
  obtain ⟨entry, hentry, rfl⟩ := List.mem_map.mp hvalue
  exact (h entry hentry).notMem_bar

/-- The ground station finds the entries of a block. -/
theorem pairs_block {entries : List (List Char × List Char)} (hne : entries ≠ [])
    (h : ∀ entry ∈ entries, PlainEntry entry) : pairs (block entries) = entries := by
  have hcut : ∀ entry ∈ entries, cut ':' (entry.1 ++ ':' :: entry.2) = some entry :=
    fun entry hentry => cut_append (h entry hentry).colon entry.2
  rw [pairs, splitOn_block hne h, List.filterMap_map]
  exact (List.filterMap_congr hcut).trans List.filterMap_some

/-- The characters of numbers make plain texts. -/
theorem plainText_of_number {text : List Char} (h : ∀ c ∈ text, isNumberChar c = true) : PlainText text := by
  have hother {c : Char} (hc : isNumberChar c = false) : c ∉ text :=
    fun hmem => Bool.false_ne_true (hc.symm.trans (h c hmem))
  exact ⟨⟨hother (by decide), trim_eq_self fun c hc => (isNumberChar_plain (h c hc)).1⟩, hother (by decide)⟩

/-- A printed number with decimals is plain. -/
theorem plainText_showFixed (decimals : ℕ) (value : Double) : PlainText (showFixed decimals value) :=
  plainText_of_number fun _ hc => showFixed_chars hc

/-- A printed integer is plain. -/
theorem plainText_showInt (value : ℤ) : PlainText (showInt value) := by
  refine plainText_of_number fun c hc => ?_
  rcases showInt_chars hc with hdigit | rfl
  · simp [isNumberChar, hdigit]
  · decide

/-- A printed count is plain. -/
theorem plainText_showNat (value : ℕ) : PlainText (showNat value) :=
  plainText_of_number fun c hc => by simp [isNumberChar, showNat_digits hc]

/-- A flag is plain. -/
theorem plainText_bit (value : Bool) : PlainText (bit value) := by
  cases value with
  | true => decide
  | false => decide

/-- A plain text stays plain with a plain word in the place of an empty one. -/
theorem plainText_textOr {text : List Char} {word : String} (h : PlainText text) (hword : PlainText word.toList) :
    PlainText (textOr text word) := by
  unfold textOr
  split
  · exact hword
  · exact h

/-- The names of the phases are plain. -/
theorem plainText_phaseName (phase : MissionPhase) : PlainText (phaseName phase) := by
  cases phase with
  | _ => decide

/-- The names of the modes are plain. -/
theorem plainText_modeName (mode : SystemMode) : PlainText (modeName mode) := by
  cases mode with
  | _ => decide

/-- The names of the states of a component are plain. -/
theorem plainText_stateName (state : ComponentState) : PlainText (stateName state) := by
  cases state with
  | _ => decide

/-- The names of the thermal states are plain. -/
theorem plainText_thermalName (state : Int32) : PlainText (thermalName state) := by
  unfold thermalName
  split
  · decide
  · split
    · decide
    · decide

/-- The words of the status are plain. -/
theorem plainText_statusWords : ∀ entry ∈ statusWords, PlainText entry.2.1.toList ∧ PlainText entry.2.2.toList := by
  decide

/-- The words of the status are a field. -/
theorem field_toStatusBitfield (flags : StatusFlags) : Field (toStatusBitfield flags) := by
  refine field_bars fun value hvalue => ?_
  obtain ⟨⟨flag, yes, no⟩, hentry, rfl⟩ := List.mem_map.mp hvalue
  obtain ⟨hyes, hno⟩ := plainText_statusWords _ hentry
  dsimp only
  split
  · exact hyes.1
  · exact hno.1

/-- An entry of a word and a plain value. -/
theorem plainEntry_of_word {word : String} {value : List Char} (hword : PlainText word.toList ∧ ':' ∉ word.toList)
    (hvalue : PlainText value) : PlainEntry (word.toList, value) := ⟨hword.1, hword.2, hvalue⟩

/-- The texts of a motor are plain. -/
structure PlainMotor (st : StepperStatus) : Prop where
  source : PlainText st.lastSource
  name : PlainText st.seqName
  state : PlainText st.seqState

/-- The texts of a record are plain. -/
structure Plain (record : TelemetryRecord) (sessionId : List Char) : Prop where
  session : PlainText sessionId
  timestamp : PlainText record.sensors.timestampUtc
  plan : PlainText record.ctrl.plan
  tune : PlainText record.ctrl.tune
  motors : ∀ st ∈ record.steppers, PlainMotor st

/-- The entries of a motor are plain as soon as its texts are. -/
theorem plainEntry_stepperEntries {st : StepperStatus} (hsource : PlainText st.lastSource)
    (hname : PlainText st.seqName) (hstate : PlainText st.seqState) :
    ∀ entry ∈ stepperEntries st, PlainEntry entry := by
  simp only [stepperEntries, List.forall_mem_cons]
  refine ⟨plainEntry_of_word (by decide) (plainText_showInt _), plainEntry_of_word (by decide) (plainText_showInt _),
    plainEntry_of_word (by decide) (plainText_showFixed _ _), plainEntry_of_word (by decide) (plainText_showInt _),
    plainEntry_of_word (by decide) (plainText_bit _), plainEntry_of_word (by decide) (plainText_bit _),
    plainEntry_of_word (by decide) (plainText_bit _), plainEntry_of_word (by decide) (plainText_bit _),
    plainEntry_of_word (by decide) (plainText_showFixed _ _), plainEntry_of_word (by decide) (plainText_showNat _),
    plainEntry_of_word (by decide) (plainText_showNat _), plainEntry_of_word (by decide) hsource,
    plainEntry_of_word (by decide) (plainText_bit _), plainEntry_of_word (by decide) hname,
    plainEntry_of_word (by decide) hstate, plainEntry_of_word (by decide) (plainText_showFixed _ _),
    plainEntry_of_word (by decide) (plainText_showFixed _ _), plainEntry_of_word (by decide) (plainText_showFixed _ _),
    plainEntry_of_word (by decide) (plainText_showFixed _ _), plainEntry_of_word (by decide) (plainText_thermalName _),
    plainEntry_of_word (by decide) (plainText_showNat _), plainEntry_of_word (by decide) (plainText_bit _),
    fun _ hmem => absurd hmem List.not_mem_nil⟩

/-- The entries of the controller are plain as soon as its texts are. -/
theorem plainEntry_ctrlEntries {ctrl : CtrlStatus} (hplan : PlainText ctrl.plan) (htune : PlainText ctrl.tune) :
    ∀ entry ∈ ctrlEntries ctrl, PlainEntry entry := by
  simp only [ctrlEntries, List.forall_mem_cons]
  exact ⟨plainEntry_of_word (by decide) (plainText_bit _), plainEntry_of_word (by decide) (plainText_showFixed _ _),
    plainEntry_of_word (by decide) (plainText_showFixed _ _), plainEntry_of_word (by decide) (plainText_showFixed _ _),
    plainEntry_of_word (by decide) (plainText_bit _), plainEntry_of_word (by decide) (plainText_showInt _),
    plainEntry_of_word (by decide) (plainText_showNat _), plainEntry_of_word (by decide) hplan,
    plainEntry_of_word (by decide) (plainText_bit _), plainEntry_of_word (by decide) htune,
    fun _ hmem => absurd hmem List.not_mem_nil⟩

/-- The entries of the components are plain. -/
theorem plainEntry_componentEntries (record : TelemetryRecord) : ∀ entry ∈ record.componentEntries, PlainEntry entry := by
  have hmotor (motor : ℕ) : PlainText (record.motorState motor) := by
    unfold TelemetryRecord.motorState
    split
    · decide
    · decide
  simp only [TelemetryRecord.componentEntries, List.forall_mem_cons]
  exact ⟨plainEntry_of_word (by decide) (plainText_stateName _), plainEntry_of_word (by decide) (plainText_stateName _),
    plainEntry_of_word (by decide) (plainText_stateName _), plainEntry_of_word (by decide) (hmotor 0),
    plainEntry_of_word (by decide) (hmotor 1), plainEntry_of_word (by decide) (plainText_stateName _),
    fun _ hmem => absurd hmem List.not_mem_nil⟩

/-- The entries of the sensors are plain as soon as the values are. -/
theorem plainEntry_sensorEntries {α : Type} {print : α → List Char} (hprint : ∀ value, PlainText (print value))
    (ambientTemp ambientPressure uv : α) (samples : ℕ) (sample : ℕ → α) :
    ∀ entry ∈ (sensorEntries ambientTemp ambientPressure uv samples sample).map (Prod.map id print),
      PlainEntry entry := by
  have hkey (i : ℕ) : PlainText ('S' :: showNat i) ∧ ':' ∉ 'S' :: showNat i := by
    have hletter : PlainText ['S'] := by decide
    refine ⟨⟨hletter.1.append (plainText_showNat i).1, ?_⟩, ?_⟩
    · exact List.not_mem_cons_of_ne_of_not_mem (by decide) (plainText_showNat i).2
    · exact List.not_mem_cons_of_ne_of_not_mem (by decide)
        fun hmem => absurd (showNat_digits hmem) (by decide)
  intro entry hentry
  obtain ⟨⟨key, value⟩, hmem, rfl⟩ := List.mem_map.mp hentry
  rcases List.mem_append.mp hmem with hfixed | hsample
  · simp only [List.mem_cons, List.not_mem_nil, or_false, Prod.mk.injEq] at hfixed
    rcases hfixed with ⟨rfl, rfl⟩ | ⟨rfl, rfl⟩ | ⟨rfl, rfl⟩
    all_goals exact plainEntry_of_word (by decide) (hprint _)
  · obtain ⟨i, -, heq⟩ := List.mem_map.mp hsample
    obtain ⟨rfl, rfl⟩ := Prod.mk.inj heq
    exact ⟨(hkey i).1, (hkey i).2, hprint _⟩

/-- A resistance is plain. -/
theorem plainText_showResistance (resistance : Option Double) : PlainText (showResistance resistance) := by
  cases resistance with
  | none => decide
  | some value => exact plainText_showFixed 3 value

/-- The entries that are sent of a motor with plain texts are plain. -/
theorem PlainMotor.plainEntry {st : StepperStatus} (h : PlainMotor st) :
    ∀ entry ∈ stepperEntries st.spelled, PlainEntry entry := by
  have hsource : PlainText st.spelled.lastSource := plainText_textOr h.source (by decide)
  have hname : PlainText st.spelled.seqName := plainText_textOr h.name (by decide)
  have hstate : PlainText st.spelled.seqState := plainText_textOr h.state (by decide)
  exact plainEntry_stepperEntries hsource hname hstate

/-- The segment of a motor with plain texts is a field. -/
theorem PlainMotor.field {st : StepperStatus} (h : PlainMotor st) (motorIndex : Int32) :
    Field (stepperSegment st motorIndex) := by
  have hword : Field "STEPPER".toList := by decide
  exact Field.joined (by decide) (hword.append (plainText_showInt _).1) (field_block h.plainEntry)

/-- Every field of a frame is one, as soon as the texts of the record are plain. -/
theorem field_of_mem_fields {record : TelemetryRecord} {sessionId : List Char} (h : Plain record sessionId) :
    ∀ text ∈ record.fields sessionId, Field text := by
  have hword {word : List Char} (hword : Field word) {value : List Char} (hvalue : Field value) : Field (word ++ value) :=
    hword.append hvalue
  have hplan : PlainText record.ctrl.spelled.plan := plainText_textOr h.plan (by decide)
  have htune : PlainText record.ctrl.spelled.tune := plainText_textOr h.tune (by decide)
  have hctrl := plainEntry_ctrlEntries hplan htune
  simp only [TelemetryRecord.fields, List.forall_mem_append, List.forall_mem_cons]
  refine ⟨⟨?head, ?samples⟩, ?heaters, ?blocks, ?motors⟩
  case head =>
    simp only [TelemetryRecord.headFields, List.forall_mem_cons]
    exact ⟨by decide, h.session.1, (plainText_showNat _).1, h.timestamp.1, (plainText_bit _).1,
      (plainText_showFixed _ _).1, (plainText_showFixed _ _).1, (plainText_showFixed _ _).1,
      fun _ hmem => absurd hmem List.not_mem_nil⟩
  case samples =>
    intro text hmem
    obtain ⟨value, -, rfl⟩ := List.mem_map.mp hmem
    exact (plainText_showFixed _ _).1
  case heaters =>
    refine hword (by decide) (field_bars fun text hmem => ?_)
    obtain ⟨value, -, rfl⟩ := List.mem_map.mp hmem
    exact (plainText_showFixed _ _).1
  case blocks =>
    simp only [TelemetryRecord.blockFields, List.forall_mem_cons]
    refine ⟨hword (by decide) (field_bars fun text hmem => ?_), hword (by decide) (plainText_phaseName _).1,
      hword (by decide) (plainText_modeName _).1, hword (by decide) (field_toStatusBitfield _),
      hword (by decide) (field_block (plainEntry_sensorEntries plainText_bit _ _ _ _ _)),
      hword (by decide) (field_block (plainEntry_sensorEntries (fun _ => plainText_showInt _) _ _ _ _ _)),
      hword (by decide) (field_block (plainEntry_componentEntries record)), hword (by decide) (field_block hctrl),
      fun _ hmem => absurd hmem List.not_mem_nil⟩
    obtain ⟨value, -, rfl⟩ := List.mem_map.mp hmem
    exact (plainText_showResistance value).1
  case motors =>
    intro text hmem
    obtain ⟨⟨st, i⟩, hst, rfl⟩ := List.mem_map.mp hmem
    exact (h.motors st (List.fst_mem_of_mem_zipIdx hst)).field _

/-- The ground station finds the fields a line was made of. -/
theorem parts_intercalate {fields : List (List Char)} (hne : fields ≠ []) (h : ∀ text ∈ fields, Field text) :
    parts ([','].intercalate fields) = fields := by
  rw [parts_eq, List.splitOn_intercalate ',' (fun text hmem => (h text hmem).1) hne]
  exact (List.map_congr_left fun text hmem => (h text hmem).2).trans (List.map_id _)

/-- The field that tells the age of a frame. -/
def ageField (age : ℕ) : List Char := "TX=".toList ++ showNat age

/-- The stamp is one more field. -/
theorem tagFrameForTransmit_serialize (record : TelemetryRecord) (sessionId : List Char) (queuedEpochS nowEpochS : ℤ) :
    tagFrameForTransmit (record.serializeTelemetryDataFrame sessionId) queuedEpochS nowEpochS =
      [','].intercalate (record.fields sessionId ++ [ageField (frameAge queuedEpochS nowEpochS)]) := by
  have hne : record.fields sessionId ≠ [] := by simp [TelemetryRecord.fields]
  have hdata : "DATA,".toList.isPrefixOf (record.serializeTelemetryDataFrame sessionId) = true := by
    simp only [TelemetryRecord.serializeTelemetryDataFrame, TelemetryRecord.fields, TelemetryRecord.headFields,
      List.cons_append, intercalate_cons]
    rfl
  rw [tagFrameForTransmit, if_pos hdata, intercalate_concat hne, List.append_assoc]
  rfl

/-- The stamp is a field. -/
theorem field_ageField (age : ℕ) : Field (ageField age) := Field.append (by decide) (plainText_showNat _).1

/-- The fields of a frame and the stamp are fields. -/
theorem field_of_mem_frame {record : TelemetryRecord} {sessionId : List Char} (h : Plain record sessionId) (age : ℕ) :
    ∀ text ∈ record.fields sessionId ++ [ageField age], Field text :=
  List.forall_mem_append.mpr ⟨field_of_mem_fields h, List.forall_mem_singleton.mpr (field_ageField age)⟩

/-- The ground station finds the fields of a frame and the stamp. -/
theorem parts_frame {record : TelemetryRecord} {sessionId : List Char} (h : Plain record sessionId)
    (queuedEpochS nowEpochS : ℤ) :
    parts (tagFrameForTransmit (record.serializeTelemetryDataFrame sessionId) queuedEpochS nowEpochS) =
      record.fields sessionId ++ [ageField (frameAge queuedEpochS nowEpochS)] := by
  rw [tagFrameForTransmit_serialize]
  exact parts_intercalate (by simp) (field_of_mem_frame h _)

end Coatheal.Telemetry
