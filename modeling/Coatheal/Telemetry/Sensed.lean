import Coatheal.Sensors.Snapshot
import Coatheal.Telemetry.Events

/-!
# From the poll of a sensor to the ground

A record carries the snapshot of its tick. What the ground station reads of a
sample is what the polls of the RTD card left at the moment of the snapshot: a
sample that it takes for valid was read by the last poll, not long before.
-/

namespace Coatheal.Telemetry

open Config Library Library.Text Library.PyText Ground Sensors

/-- The entry of a sample. -/
theorem mem_sensorEntries {α : Type} (ambientTemp ambientPressure uv : α) {samples i : ℕ} (sample : ℕ → α)
    (hi : i < samples) :
    ('S' :: showNat i, sample i) ∈ sensorEntries ambientTemp ambientPressure uv samples sample :=
  List.mem_append_right _ (List.mem_map.mpr ⟨i, List.mem_range.mpr hi, rfl⟩)

/-- The packet tells which samples are valid. -/
theorem get?_validEntries {sensors : SensorSnapshot} {i : ℕ} (hi : i < sensors.sampleTempsC.length) :
    Dict.get? sensors.validEntries ('S' :: showNat i) = some (sensors.sampleTempValid.getD i false) :=
  (Dict.get?_eq_some_iff (nodup_sensorEntries _ _ _ _ _)).mpr
    (mem_sensorEntries _ _ _ (fun i => sensors.sampleTempValid.getD i false) hi)

/-- The packet tells how old the samples are. -/
theorem get?_ageEntries {sensors : SensorSnapshot} {i : ℕ} (hi : i < sensors.sampleTempsC.length) :
    Dict.get? (sensors.ageEntries.map (Prod.map id Int64.toInt)) ('S' :: showNat i) =
      some (sensors.sampleTempAgeMs.getD i (-1)).toInt := by
  have hkeys : (Dict.keys (sensors.ageEntries.map (Prod.map id Int64.toInt))).Nodup := by
    have hsame : Dict.keys (sensors.ageEntries.map (Prod.map id Int64.toInt)) = Dict.keys sensors.ageEntries := by
      simp [Dict.keys]
    rw [hsame]
    exact nodup_sensorEntries _ _ _ _ _
  refine (Dict.get?_eq_some_iff hkeys).mpr (List.mem_map.mpr ⟨('S' :: showNat i, sensors.sampleTempAgeMs.getD i (-1)), ?_, rfl⟩)
  exact mem_sensorEntries _ _ _ (fun i => sensors.sampleTempAgeMs.getD i (-1)) hi

/-- What the packet tells of a sample that is current. -/
structure Received (config : OnboardConfig) (packet : TelemetryPacket) (i : ℕ) (value : Double) (moment now : ℤ) : Prop where
  temp : packet.sampleTempsC[i]? = some (rounded 2 value)
  age : Dict.get? packet.sensorAgeMs ('S' :: showNat i) = some (now - moment)
  recent : 0 ≤ now - moment ∧ now - moment < config.sensors.staleAfterMs

section

variable {config : OnboardConfig} {switches : SensorSwitches} {range : SensorRange}
  {rtdAvailable clicksAvailable inaHealthy rtcValid : Bool} {timestampUtc : List Char} {history : List Activity} {now : ℤ}
  {record : TelemetryRecord} {sessionId : List Char} {i : ℕ}

/-- The polls of a sample. -/
abbrev samplePolls (config : OnboardConfig) (switches : SensorSwitches) (rtdAvailable clicksAvailable : Bool)
    (history : List Activity) (i : ℕ) : List (Attempt Double ℤ) :=
  (cardAttempts config switches rtdAvailable clicksAvailable history).map (Attempt.part (RtdReading.temperature i))

/-- The packet of a record tells of a sample what its polls left. -/
theorem received_packetOf
    (hsensors : record.sensors = ((Sensing.after config switches rtdAvailable clicksAvailable history).readSnapshot config
      switches range rtcValid timestampUtc inaHealthy now).1)
    (hlimit : config.sensors.staleAfterMs < 2 ^ 31) (hi : i < config.hardware.sampleCount) (age : ℕ) :
    Dict.get? (packetOf record.asRead sessionId age).sensorValid ('S' :: showNat i) =
        some (current (recent config now) (samplePolls config switches rtdAvailable clicksAvailable history i)).isSome ∧
      ∀ value, current (recent config now) (samplePolls config switches rtdAvailable clicksAvailable history i) = some value →
        ∃ moment, lastSuccess (samplePolls config switches rtdAvailable clicksAvailable history i) = some (value, moment) ∧
          Received config (packetOf record.asRead sessionId age) i value moment now := by
  have hfaithful := @faithful_readSnapshot config switches _ _ _ _ (dpsRepresents_after rtdAvailable clicksAvailable history)
    (adsRepresents_after rtdAvailable clicksAvailable history) (cardRepresents_after rtdAvailable clicksAvailable history)
    range rtcValid timestampUtc inaHealthy now
  rw [← hsensors] at hfaithful
  obtain ⟨hlength, -, -⟩ := hfaithful.samples
  have hsample := hfaithful.sample i hi
  have hin : i < record.sensors.sampleTempsC.length := by rw [hlength]; exact hi
  refine ⟨?_, fun value hvalue => ?_⟩
  · exact (get?_validEntries hin).trans (congrArg some hsample.valid)
  · obtain ⟨moment, hlast, hrecent⟩ := lastSuccess_of_current hvalue
    rw [recent, Bool.and_eq_true, decide_eq_true_eq, decide_eq_true_eq] at hrecent
    refine ⟨moment, hlast, ?_, ?_, hrecent⟩
    · have htemp : record.sensors.sampleTempsC.getD i noReading = value := by
        rw [hsample.value, hlast]
        rfl
      change (record.sensors.sampleTempsC.map (rounded 2))[i]? = some (rounded 2 value)
      rw [List.getElem?_map, List.getElem?_eq_getElem hin, Option.map_some, ← htemp, List.getD_eq_getElem _ _ hin]
    · have hage : record.sensors.sampleTempAgeMs.getD i (-1) = Int64.ofInt (now - moment) := by
        rw [hsample.age, hlast]
        rfl
      refine (get?_ageEntries hin).trans ?_
      rw [hage, Int64.toInt_ofInt_of_le (by omega) (by omega)]

/-- A sample that the ground station takes for valid was read by the last poll of the card: what came in on the wire, plain or
compressed, gives its temperature as it is printed, and how long ago that was. -/
theorem Message.read_samples {queuedEpochS nowEpochS : ℤ} {receiver : Receiver} {inflate : List Char → Option (List Char)}
    {wire : List Char}
    (hsensors : record.sensors = ((Sensing.after config switches rtdAvailable clicksAvailable history).readSnapshot config
      switches range rtcValid timestampUtc inaHealthy now).1)
    (hlimit : config.sensors.staleAfterMs < 2 ^ 31)
    (hplain : (Message.record record queuedEpochS nowEpochS).Plain sessionId) (hne : sessionId ≠ [])
    (hdistinct : (Message.record record queuedEpochS nowEpochS).Distinct sessionId)
    (hwire : Carries inflate wire ((Message.record record queuedEpochS nowEpochS).line sessionId)) :
    ∃ packet, (frameText inflate wire).map receiver.read = some (.telemetry packet) ∧
      ∀ i < config.hardware.sampleCount,
        Dict.get? packet.sensorValid ('S' :: showNat i) =
            some (current (recent config now) (samplePolls config switches rtdAvailable clicksAvailable history i)).isSome ∧
          ∀ value, current (recent config now) (samplePolls config switches rtdAvailable clicksAvailable history i) = some value →
            ∃ moment, lastSuccess (samplePolls config switches rtdAvailable clicksAvailable history i) = some (value, moment) ∧
              Received config packet i value moment now := by
  refine ⟨packetOf record.asRead sessionId (frameAge queuedEpochS nowEpochS), ?_, fun i hi => ?_⟩
  · rw [Message.frameText_line hplain hne hwire, Option.map_some, Message.read_line hplain hdistinct]
    rfl
  · exact received_packetOf hsensors hlimit hi _

end

/-- Both sensors are on and looked for. -/
def allOn : SensorSwitches := ⟨true, true, true, true⟩

/-- A range of no width. -/
def noRange : SensorRange := ⟨wholeFloat 0, wholeFloat 0, wholeFloat 0, wholeFloat 0⟩

/-- The record of a motor that holds, half a second after a reading of the card. -/
def sensedRecord : TelemetryRecord :=
  { holdingRecord with
    sensors := ((Sensing.after cardConfig allOn true true [.samples (.rtd goodPass)]).readSnapshot cardConfig allOn noRange
      true "2026-10-05T12:00:00Z".toList false 1500).1 }

/-- The samples of a record that was built half a second after a reading of the card. -/
theorem Message.read_samples_goodPass :
    ∃ packet,
      (frameText (fun _ => none) ((Message.record sensedRecord 1000 1003).line "COATHEAL-1".toList)).map Receiver.gui.read =
        some (.telemetry packet) ∧
      ∀ i < cardConfig.hardware.sampleCount,
        Dict.get? packet.sensorValid ('S' :: showNat i) = some (current (recent cardConfig 1500)
          (samplePolls cardConfig allOn true true [.samples (.rtd goodPass)] i)).isSome ∧
        ∀ value, current (recent cardConfig 1500) (samplePolls cardConfig allOn true true [.samples (.rtd goodPass)] i) =
            some value →
          ∃ moment, lastSuccess (samplePolls cardConfig allOn true true [.samples (.rtd goodPass)] i) = some (value, moment) ∧
            Received cardConfig packet i value moment 1500 := by
  have hplain : Telemetry.Plain sensedRecord "COATHEAL-1".toList := by
    refine ⟨by decide, by decide, by decide, by decide, fun st hst => ?_⟩
    obtain rfl := List.mem_singleton.mp hst
    exact ⟨by decide, by decide, by decide⟩
  exact @Message.read_samples cardConfig allOn noRange true true false true "2026-10-05T12:00:00Z".toList
    [.samples (.rtd goodPass)] 1500 sensedRecord "COATHEAL-1".toList 1000 1003 .gui (fun _ => none) _ rfl (by decide) hplain
    (by decide) ⟨rfl, rfl, by decide⟩ (Or.inl rfl)

end Coatheal.Telemetry
