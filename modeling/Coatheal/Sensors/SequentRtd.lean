import Coatheal.Library.Run
import Coatheal.Sensors.Resistance

/-!
# The card that measures the temperatures

`sequent_rtd_adapter.cpp`: the card is a memory of bytes behind a bus whose every
read may fail, and the memory changes as the card measures. Eight values are read in
one go, so that they belong together, until a card refuses that once; from then on
they are read one by one. Whichever way they are read, each value is the one of its
channel, and nothing but the registers of the measurements and of the identity is
ever read.
-/

namespace Coatheal.Sensors

open Library Library.PyText
open Ground (floatLe wholeFloat)

/-- `kChannels`. -/
def kChannels : ℕ := 8

/-- `kRtdVal1`. -/
def kRtdVal1 : ℕ := 0

/-- `kDiagTemp`. -/
def kDiagTemp : ℕ := kRtdVal1 + kChannels * 4

/-- `kRevHwMajor`. -/
def kRevHwMajor : ℕ := 55

/-- `kRevMajor`. -/
def kRevMajor : ℕ := 57

/-- `kRtdRes1`. -/
def kRtdRes1 : ℕ := 59

/-- `kRtdReinit`. -/
def kRtdReinit : ℕ := kRtdRes1 + kChannels * 4

/-- `kCardType`. -/
def kCardType : ℕ := 99

/-- `kPt1000`. -/
def kPt1000 : ℕ := 133

/-- `SequentRtdAdapter::Options`; a channel of the card for each sample, counted from one. -/
structure RtdOptions where
  stack : ℤ
  expectPt1000 : Bool
  resistanceMinOhm : Double
  resistanceMaxOhm : Double
  crosscheckTolC : Double
  channelMap : Fin 8 → ℕ

/-- The register of a sample's value in a block. -/
def RtdOptions.registerOf (options : RtdOptions) (base : ℕ) (i : Fin 8) : ℕ := base + 4 * (options.channelMap i - 1)

/-- `SequentRtdAdapter::Identity`. -/
structure CardIdentity where
  cardType : BitVec 8
  fwMajor : BitVec 8
  fwMinor : BitVec 8
  hwMajor : BitVec 8
  hwMinor : BitVec 8
  pt1000 : Bool

/-- What the diagnostic registers tell; a register that is not read leaves what was there. -/
structure CardDiagnostics where
  cardTempC : Option ℤ
  rail5vMillivolts : Option ℕ
  adcReinitCount : Option ℕ

/-- How a read ends, and the memory of the card at that moment. -/
structure I2cAnswer where
  ok : Bool
  memory : ℕ → BitVec 8

/-- The bus of a card: how each opening and each read ends. -/
structure I2cLine where
  opens : ℕ → Bool
  answer : ℕ → I2cAnswer

/-- What the adapter keeps of a card, and the reads that were asked for: their first registers and their lengths, the newest
first. -/
structure RtdCard where
  isOpen : Bool
  burstMode : Bool
  openings : ℕ
  log : List (ℕ × ℕ)

/-- `FloatAt`: four bytes, the lowest first, as a float. -/
def floatAt (b0 b1 b2 b3 : BitVec 8) : Double :=
  let bits := b3 ++ b2 ++ b1 ++ b0
  let exponent := (bits.extractLsb' 23 8).toNat
  let mantissa := (bits.extractLsb' 0 23).toNat
  ⟨bits.getLsbD 31,
    if exponent = 255 then (if mantissa = 0 then .infinite else .nan)
    else if exponent = 0 then .finite (.divNat mantissa (2 ^ 149))
    else .finite (.divNat ((mantissa + 2 ^ 23) * 2 ^ exponent) (2 ^ 150))⟩

/-- The float at a register. -/
def floatIn (memory : ℕ → BitVec 8) (register : ℕ) : Double :=
  floatAt (memory register) (memory (register + 1)) (memory (register + 2)) (memory (register + 3))

namespace RtdCard

variable (line : I2cLine) (card : RtdCard)

/-- `open_ = false`: the bus is opened again the next time. -/
def close : RtdCard := { card with isOpen := false }

/-- The number of the next read. -/
def moment : ℕ := card.log.length

/-- `ReadRegisters`: the memory as the read found it, unless it fails. -/
def readRegisters (register length : ℕ) : Option (ℕ → BitVec 8) × RtdCard :=
  let answer := line.answer card.moment
  (if answer.ok then some answer.memory else none, { card with log := (register, length) :: card.log })

/-- `EnsureOpen` of an adapter with a bus. -/
def ensureOpen (options : RtdOptions) : Except String Unit × RtdCard :=
  if options.stack < 0 ∨ 7 < options.stack then (.error "STACK_OUT_OF_RANGE", card)
  else if card.isOpen then (.ok (), card)
  else if line.opens card.openings then (.ok (), { card with isOpen := true, openings := card.openings + 1 })
  else (.error "BUS_OPEN_FAILED", { card with openings := card.openings + 1 })

/-- `Probe`. A card that answers but is not the right one leaves the bus open. -/
def probe (options : RtdOptions) : Except String CardIdentity × RtdCard :=
  match card.ensureOpen line options with
  | (.error error, card) => (.error error, card)
  | (.ok (), card) =>
    match card.readRegisters line kRevMajor 2 with
    | (none, card) => (.error "CARD_NOT_DETECTED", card.close)
    | (some rev, card) =>
      match card.readRegisters line kRevHwMajor 2 with
      | (none, card) => (.error "HW_REVISION_READ_FAILED", card.close)
      | (some hw, card) =>
        match card.readRegisters line kCardType 1 with
        | (none, card) => (.error "CARD_TYPE_READ_FAILED", card.close)
        | (some cardType, card) =>
          if cardType kCardType < 1 then (.error "SENSOR_TYPE_UNVERIFIABLE_OLD_HARDWARE", card)
          else
            match card.readRegisters line kPt1000 1 with
            | (none, card) => (.error "SENSOR_TYPE_READ_FAILED", card.close)
            | (some sensor, card) =>
              let pt1000 := decide (sensor kPt1000 &&& 0x0F ≠ 0)
              if pt1000 ≠ options.expectPt1000 then (.error "SENSOR_TYPE_MISMATCH", card)
              else
                (.ok ⟨cardType kCardType, rev kRevMajor, rev (kRevMajor + 1), hw kRevHwMajor, hw (kRevHwMajor + 1), pt1000⟩,
                  card)

/-- The loop of `ReadFloatBlock` that reads the values one by one. -/
def readEach (options : RtdOptions) (base : ℕ) :
    List (Fin 8) → (Fin 8 → Double) → RtdCard → Option (Fin 8 → Double) × RtdCard
  | [], out, card => (some out, card)
  | i :: later, out, card =>
    match card.readRegisters line (options.registerOf base i) 4 with
    | (none, card) => (none, card)
    | (some memory, card) =>
      readEach options base later (Function.update out i (floatIn memory (options.registerOf base i))) card

/-- `ReadFloatBlock`. -/
def readFloatBlock (options : RtdOptions) (base : ℕ) (out : Fin 8 → Double) : Option (Fin 8 → Double) × RtdCard :=
  if card.burstMode then
    match card.readRegisters line base (kChannels * 4) with
    | (some memory, card) => (some fun i => floatIn memory (options.registerOf base i), card)
    | (none, card) => readEach line options base (List.finRange 8) out { card with burstMode := false }
  else readEach line options base (List.finRange 8) out card

/-- The diagnostics of `ReadAll`; a read that fails is passed over. -/
def readDiagnostics : CardDiagnostics × RtdCard :=
  let (diag, card) := card.readRegisters line kDiagTemp 3
  let (reinit, card) := card.readRegisters line kRtdReinit 4
  (⟨diag.map fun memory => (memory kDiagTemp).toInt,
    diag.map fun memory => (memory (kDiagTemp + 2) ++ memory (kDiagTemp + 1)).toNat,
    reinit.map fun memory =>
      (memory (kRtdReinit + 3) ++ memory (kRtdReinit + 2) ++ memory (kRtdReinit + 1) ++ memory kRtdReinit).toNat⟩, card)

end RtdCard

section Validation

/-- `<` of two floats. -/
def floatLt (a b : Double) : Bool := floatLe a b && !floatLe b a

/-- `isfinite`. -/
def isFinite (value : Double) : Bool :=
  match value.magnitude with
  | .finite _ => true
  | _ => false

/-- The size of a float. -/
def floatAbs (value : Double) : Double := ⟨false, value.magnitude⟩

/-- The size of the difference of two floats; one that is not finite is not asked for. -/
def floatDistance (a b : Double) : Double :=
  match a.magnitude, b.magnitude with
  | .finite x, .finite y => ⟨false, doubleOf |Ground.signed a.negative x - Ground.signed b.negative y|⟩
  | _, _ => ⟨false, .nan⟩

/-- `kOpenSentinelOhm`. -/
def openSentinelOhm : Double := wholeFloat 366

/-- `kSentinelTolOhm`. -/
def sentinelTolOhm : Double := ⟨false, .finite (.divNat 1 2)⟩

/-- What `ApplyValidation` says of a channel; `pt100` is `Pt100TemperatureFromOhms`. -/
def channelFault (pt100 : Double → Option Double) (options : RtdOptions) (temp ohms : Double) : RtdChannelFault :=
  if !isFinite temp || !isFinite ohms then .open
  else if floatLe (floatDistance (floatAbs ohms) openSentinelOhm) sentinelTolOhm then .open
  else if floatLt ohms options.resistanceMinOhm then (if floatLe (wholeFloat 0) ohms then .short else .open)
  else if floatLt options.resistanceMaxOhm ohms then .open
  else
    match pt100 ohms with
    | none => .mismatch
    | some derived => if floatLt options.crosscheckTolC (floatDistance derived temp) then .mismatch else .none

/-- `ApplyValidation`. -/
def applyValidation (pt100 : Double → Option Double) (options : RtdOptions) (temperatureC resistanceOhm : Fin 8 → Double) :
    RtdReading where
  temperatureC := temperatureC
  resistanceOhm := resistanceOhm
  channelValid := fun i => decide (channelFault pt100 options (temperatureC i) (resistanceOhm i) = .none)
  channelFault := fun i => channelFault pt100 options (temperatureC i) (resistanceOhm i)

end Validation

namespace RtdCard

variable (line : I2cLine) (pt100 : Double → Option Double) (options : RtdOptions) (card : RtdCard)

/-- `ReadAll`. -/
def readAll : Except String (RtdReading × CardDiagnostics) × RtdCard :=
  match card.ensureOpen line options with
  | (.error error, card) => (.error error, card)
  | (.ok (), card) =>
    match card.readFloatBlock line options kRtdVal1 fun _ => wholeFloat 0 with
    | (none, card) => (.error "TEMPERATURE_READ_FAILED", card.close)
    | (some temperatures, card) =>
      match card.readFloatBlock line options kRtdRes1 fun _ => wholeFloat 0 with
      | (none, card) => (.error "RESISTANCE_READ_FAILED", card.close)
      | (some resistances, card) =>
        let (diagnostics, card) := card.readDiagnostics line
        (.ok (applyValidation pt100 options temperatures resistances, diagnostics), card)

/-- A call of the adapter. -/
inductive Call where
  | probe
  | readAll

/-- The card after a call. -/
def call : Call → RtdCard
  | .probe => (card.probe line options).2
  | .readAll => (card.readAll line pt100 options).2

/-- The card after some calls. -/
def calls (history : List Call) : RtdCard := Library.run (fun card next => card.call line pt100 options next) card history

variable {line pt100 options card}

/-- A read within the measurements, or of the identity: it stays clear of the watchdog in between. -/
def Allowed (read : ℕ × ℕ) : Prop :=
  read.1 + read.2 ≤ 35 ∨ (55 ≤ read.1 ∧ read.1 + read.2 ≤ 95) ∨ read = (kCardType, 1) ∨ read = (kPt1000, 1)

/-- Nothing else was read. -/
def Careful (card : RtdCard) : Prop := ∀ read ∈ card.log, Allowed read

/-- An allowed read is careful. -/
theorem Careful.readRegisters (h : card.Careful) (line : I2cLine) {register length : ℕ} (hallowed : Allowed (register, length)) :
    (card.readRegisters line register length).2.Careful := List.forall_mem_cons.mpr ⟨hallowed, h⟩

/-- Opening the bus reads nothing. -/
theorem log_ensureOpen (card : RtdCard) : (card.ensureOpen line options).2.log = card.log := by
  unfold ensureOpen
  split_ifs <;> rfl

/-- The channels of the card. -/
def Mapped (options : RtdOptions) : Prop := ∀ i, 1 ≤ options.channelMap i ∧ options.channelMap i ≤ 8

/-- A block of measurements. -/
def IsBlock (base : ℕ) : Prop := base = kRtdVal1 ∨ base = kRtdRes1

/-- The register of a channel is within its block. -/
theorem allowed_registerOf (hmapped : Mapped options) {base : ℕ} (hbase : IsBlock base) (i : Fin 8) :
    Allowed (options.registerOf base i, 4) := by
  obtain ⟨hlow, hhigh⟩ := hmapped i
  unfold Allowed RtdOptions.registerOf
  dsimp only
  rcases hbase with rfl | rfl
  · left
    unfold kRtdVal1
    omega
  · right
    left
    unfold kRtdRes1
    omega

/-- Reading the values one by one is careful. -/
theorem Careful.readEach (hmapped : Mapped options) {base : ℕ} (hbase : IsBlock base) {places : List (Fin 8)}
    {out : Fin 8 → Double} (h : card.Careful) : (readEach line options base places out card).2.Careful := by
  induction places generalizing out card with
  | nil => exact h
  | cons i later ih =>
    have hread := h.readRegisters line (allowed_registerOf hmapped hbase i)
    rw [RtdCard.readEach]
    rcases hresult : card.readRegisters line (options.registerOf base i) 4 with ⟨_ | memory, read⟩
    · rw [hresult] at hread
      exact hread
    · rw [hresult] at hread
      exact ih hread

/-- Reading a block is careful. -/
theorem Careful.readFloatBlock (h : card.Careful) (line : I2cLine) (out : Fin 8 → Double) (hmapped : Mapped options)
    {base : ℕ} (hbase : IsBlock base) : (card.readFloatBlock line options base out).2.Careful := by
  have hwhole : Allowed (base, kChannels * 4) := by
    unfold Allowed
    rcases hbase with rfl | rfl
    · exact Or.inl (by decide)
    · exact Or.inr (Or.inl (by decide))
  unfold RtdCard.readFloatBlock
  cases hburst : card.burstMode with
  | false => exact h.readEach hmapped hbase
  | true =>
    have hread := h.readRegisters line hwhole
    rw [if_pos rfl]
    rcases hresult : card.readRegisters line base (kChannels * 4) with ⟨_ | memory, read⟩
    · rw [hresult] at hread
      exact Careful.readEach hmapped hbase hread
    · rw [hresult] at hread
      exact hread

/-- Reading the diagnostics is careful. -/
theorem Careful.readDiagnostics (h : card.Careful) (line : I2cLine) : (card.readDiagnostics line).2.Careful := by
  have hdiag : Allowed (kDiagTemp, 3) := Or.inl (by decide)
  have hreinit : Allowed (kRtdReinit, 4) := Or.inr (Or.inl (by decide))
  exact (h.readRegisters line hdiag).readRegisters line hreinit

/-- Opening the bus is careful. -/
theorem Careful.ensureOpen (h : card.Careful) (line : I2cLine) (options : RtdOptions) : (card.ensureOpen line options).2.Careful := by
  unfold Careful
  rw [log_ensureOpen]
  exact h

/-- A probe is careful. -/
theorem Careful.probe (h : card.Careful) : (card.probe line options).2.Careful := by
  have hrev : Allowed (kRevMajor, 2) := Or.inr (Or.inl (by decide))
  have hhw : Allowed (kRevHwMajor, 2) := Or.inr (Or.inl (by decide))
  have htype : Allowed (kCardType, 1) := Or.inr (Or.inr (Or.inl rfl))
  have hsensor : Allowed (kPt1000, 1) := Or.inr (Or.inr (Or.inr rfl))
  have hopen := h.ensureOpen line options
  unfold RtdCard.probe
  rcases hopened : card.ensureOpen line options with ⟨_ | _, c0⟩
  · rw [hopened] at hopen
    exact hopen
  rw [hopened] at hopen
  have h1 := hopen.readRegisters line hrev
  dsimp only
  rcases hr1 : c0.readRegisters line kRevMajor 2 with ⟨_ | rev, c1⟩
  · rw [hr1] at h1
    exact h1
  rw [hr1] at h1
  have h2 := h1.readRegisters line hhw
  dsimp only
  rcases hr2 : c1.readRegisters line kRevHwMajor 2 with ⟨_ | hw, c2⟩
  · rw [hr2] at h2
    exact h2
  rw [hr2] at h2
  have h3 := h2.readRegisters line htype
  dsimp only
  rcases hr3 : c2.readRegisters line kCardType 1 with ⟨_ | cardType, c3⟩
  · rw [hr3] at h3
    exact h3
  rw [hr3] at h3
  have h4 := h3.readRegisters line hsensor
  dsimp only
  split
  · exact h3
  rcases hr4 : c3.readRegisters line kPt1000 1 with ⟨_ | sensor, c4⟩
  · rw [hr4] at h4
    exact h4
  rw [hr4] at h4
  dsimp only
  split
  · exact h4
  · exact h4

/-- Reading all values is careful. -/
theorem Careful.readAll (hmapped : Mapped options) (h : card.Careful) :
    (card.readAll line pt100 options).2.Careful := by
  have hopen := h.ensureOpen line options
  unfold RtdCard.readAll
  rcases hopened : card.ensureOpen line options with ⟨_ | _, c0⟩
  · rw [hopened] at hopen
    exact hopen
  rw [hopened] at hopen
  have h1 := hopen.readFloatBlock line (fun _ => wholeFloat 0) hmapped (Or.inl rfl)
  dsimp only
  rcases hr1 : c0.readFloatBlock line options kRtdVal1 fun _ => wholeFloat 0 with ⟨_ | temperatures, c1⟩
  · rw [hr1] at h1
    exact h1
  rw [hr1] at h1
  have h2 := h1.readFloatBlock line (fun _ => wholeFloat 0) hmapped (Or.inr rfl)
  dsimp only
  rcases hr2 : c1.readFloatBlock line options kRtdRes1 fun _ => wholeFloat 0 with ⟨_ | resistances, c2⟩
  · rw [hr2] at h2
    exact h2
  rw [hr2] at h2
  exact h2.readDiagnostics line

/-- In every run of calls, whatever the bus answers, the adapter reads the measurements and the identity of the card and
nothing else; none of its reads touches the registers of the watchdog, from 35 to 54. -/
theorem allowed_calls (line : I2cLine) (pt100 : Double → Option Double) (hmapped : Mapped options) (history : List Call)
    (openings : ℕ) : ∀ read ∈ (calls line pt100 options ⟨false, true, openings, []⟩ history).log,
      Allowed read ∧ (read.1 + read.2 ≤ 35 ∨ 55 ≤ read.1) := by
  have hstep (card : RtdCard) (next : Call) (h : card.Careful) : (card.call line pt100 options next).Careful := by
    cases next with
    | probe => exact h.probe
    | readAll => exact h.readAll hmapped
  have hstart : Careful ⟨false, true, openings, []⟩ := fun read hread => absurd hread List.not_mem_nil
  have hcareful : (calls line pt100 options ⟨false, true, openings, []⟩ history).Careful :=
    (holds_of_step hstep (fun _ h => h) hstart history).last
  intro read hread
  have hallowed := hcareful read hread
  refine ⟨hallowed, ?_⟩
  rcases hallowed with hlow | ⟨hhigh, -⟩ | rfl | rfl
  · exact Or.inl hlow
  · exact Or.inr hhigh
  · exact Or.inr (by decide)
  · exact Or.inr (by decide)

section Values

/-- The values of a block as reads of it found them that were made from one moment to another; in a burst all of them were found by one
read. -/
structure Found (line : I2cLine) (options : RtdOptions) (base first last : ℕ) (burst : Bool) (values : Fin 8 → Double)
    (moments : Fin 8 → ℕ) : Prop where
  first_le : ∀ i, first ≤ moments i
  lt_last : ∀ i, moments i < last
  ok : ∀ i, (line.answer (moments i)).ok = true
  value : ∀ i, values i = floatIn (line.answer (moments i)).memory (options.registerOf base i)
  same : burst = true → ∀ i j, moments i = moments j

/-- A read that succeeds tells what it found, and is counted. -/
theorem readRegisters_eq_some {register length : ℕ} {memory : ℕ → BitVec 8} {after : RtdCard}
    (h : card.readRegisters line register length = (some memory, after)) :
    (line.answer card.moment).ok = true ∧ memory = (line.answer card.moment).memory ∧ after.moment = card.moment + 1 ∧
      after.burstMode = card.burstMode := by
  unfold readRegisters at h
  dsimp only at h
  cases hok : (line.answer card.moment).ok with
  | false =>
    rw [hok] at h
    cases h
  | true =>
    rw [hok] at h
    cases h
    exact ⟨rfl, rfl, rfl, rfl⟩

/-- The values that are read one by one are found one after the other, and the others stay as they were. -/
theorem readEach_eq_some {base : ℕ} {places : List (Fin 8)} {out values : Fin 8 → Double} {after : RtdCard}
    (h : readEach line options base places out card = (some values, after)) (hnodup : places.Nodup) :
    after.burstMode = card.burstMode ∧ card.moment ≤ after.moment ∧ (∀ i ∉ places, values i = out i) ∧
      ∀ i ∈ places, ∃ n, card.moment ≤ n ∧ n < after.moment ∧ (line.answer n).ok = true ∧
        values i = floatIn (line.answer n).memory (options.registerOf base i) := by
  induction places generalizing out card with
  | nil =>
    cases h
    exact ⟨rfl, le_rfl, fun i _ => rfl, fun i hi => absurd hi List.not_mem_nil⟩
  | cons place later ih =>
    obtain ⟨hnew, hnodup⟩ := List.nodup_cons.mp hnodup
    rw [readEach] at h
    rcases hread : card.readRegisters line (options.registerOf base place) 4 with ⟨_ | memory, next⟩
    · rw [hread] at h
      cases h
    · rw [hread] at h
      obtain ⟨hok, rfl, hmoment, hburst⟩ := readRegisters_eq_some hread
      obtain ⟨hkept, hle, hothers, hfound⟩ := ih h hnodup
      refine ⟨hkept.trans hburst, by omega, fun i hi => ?_, fun i hi => ?_⟩
      · obtain ⟨hne, hnot⟩ := not_or.mp (List.mem_cons.not.mp hi)
        rw [hothers i hnot, Function.update_of_ne hne]
      · rcases List.mem_cons.mp hi with rfl | hlater
        · refine ⟨card.moment, le_rfl, by omega, hok, ?_⟩
          rw [hothers i hnew, Function.update_self]
        · obtain ⟨n, hlow, hhigh, hrest⟩ := hfound i hlater
          exact ⟨n, by omega, hhigh, hrest⟩

/-- A block that is read was found by its reads; in burst mode by one. -/
theorem readFloatBlock_eq_some {base : ℕ} {out values : Fin 8 → Double} {after : RtdCard}
    (h : card.readFloatBlock line options base out = (some values, after)) :
    (after.burstMode = true → card.burstMode = true) ∧ card.moment ≤ after.moment ∧
      ∃ moments, Found line options base card.moment after.moment after.burstMode values moments := by
  have heach {start : RtdCard} (hburst : start.burstMode = false) (hfirst : card.moment ≤ start.moment)
      (heach : readEach line options base (List.finRange 8) out start = (some values, after)) :
      after.burstMode = false ∧ card.moment ≤ after.moment ∧
        ∃ moments, Found line options base card.moment after.moment after.burstMode values moments := by
    obtain ⟨hkept, hle, -, hfound⟩ := readEach_eq_some heach (List.nodup_finRange 8)
    choose moments hlow hhigh hok hvalue using fun i => hfound i (List.mem_finRange i)
    refine ⟨hkept.trans hburst, hfirst.trans hle, moments, fun i => hfirst.trans (hlow i), hhigh, hok, hvalue, fun hsame => ?_⟩
    rw [hkept, hburst] at hsame
    cases hsame
  unfold readFloatBlock at h
  cases hburst : card.burstMode with
  | false =>
    rw [hburst, if_neg Bool.false_ne_true] at h
    obtain ⟨hoff, hle, hfound⟩ := heach hburst le_rfl h
    exact ⟨fun hon => absurd (hoff.symm.trans hon) Bool.false_ne_true, hle, hfound⟩
  | true =>
    rw [hburst, if_pos rfl] at h
    refine ⟨fun _ => rfl, ?_⟩
    rcases hread : card.readRegisters line base (kChannels * 4) with ⟨_ | memory, next⟩
    · rw [hread] at h
      have hfirst : card.moment ≤ ({ next with burstMode := false } : RtdCard).moment := by
        have hnext := congrArg (fun result => result.2.moment) hread
        exact hnext ▸ Nat.le_succ _
      exact (heach rfl hfirst h).2
    · rw [hread] at h
      obtain ⟨hok, hmemory, hmoment, -⟩ := readRegisters_eq_some hread
      cases h
      refine ⟨by omega, fun _ => card.moment, fun _ => le_rfl, fun _ => by omega, fun _ => hok, fun i => ?_,
        fun _ _ _ => rfl⟩
      rw [hmemory]

/-- Opening the bus is no read. -/
theorem ensureOpen_same {opened : RtdCard} {result : Except String Unit} (h : card.ensureOpen line options = (result, opened)) :
    opened.moment = card.moment ∧ opened.burstMode = card.burstMode := by
  unfold ensureOpen at h
  split_ifs at h
  all_goals
    cases h
    exact ⟨rfl, rfl⟩

/-- A reading that succeeds shows the value of each channel as a read in this call found it, the temperatures before the
resistances. When the card still takes bursts afterwards, all temperatures were found by one read, and all resistances by one. On
a card that stands still during the call the reading is the same in a burst and one by one. -/
theorem readAll_values {reading : RtdReading} {diagnostics : CardDiagnostics} {after : RtdCard}
    (h : card.readAll line pt100 options = (.ok (reading, diagnostics), after)) :
    (after.burstMode = true → card.burstMode = true) ∧
      (∃ middle temperatures resistances,
        Found line options kRtdVal1 card.moment middle after.burstMode reading.temperatureC temperatures ∧
        Found line options kRtdRes1 middle after.moment after.burstMode reading.resistanceOhm resistances) ∧
      ∀ memory, (∀ n, card.moment ≤ n → n < after.moment → (line.answer n).memory = memory) →
        reading = applyValidation pt100 options (fun i => floatIn memory (options.registerOf kRtdVal1 i))
          (fun i => floatIn memory (options.registerOf kRtdRes1 i)) := by
  unfold readAll at h
  rcases hopened : card.ensureOpen line options with ⟨_ | _, c0⟩
  · rw [hopened] at h
    cases h
  rw [hopened] at h
  dsimp only at h
  rcases htemps : c0.readFloatBlock line options kRtdVal1 fun _ => wholeFloat 0 with ⟨_ | values, c1⟩
  · rw [htemps] at h
    cases h
  rw [htemps] at h
  dsimp only at h
  rcases hohms : c1.readFloatBlock line options kRtdRes1 fun _ => wholeFloat 0 with ⟨_ | ohms, c2⟩
  · rw [hohms] at h
    cases h
  rw [hohms] at h
  dsimp only at h
  obtain ⟨hmoment, hburst⟩ := ensureOpen_same hopened
  obtain ⟨hburst1, hle1, temperatures, hfound1⟩ := readFloatBlock_eq_some htemps
  obtain ⟨hburst2, hle2, resistances, hfound2⟩ := readFloatBlock_eq_some hohms
  -- the diagnostics are two more reads
  have hafter : after.burstMode = c2.burstMode ∧ after.moment = c2.moment + 2 ∧
      reading = applyValidation pt100 options values ohms := by
    cases h
    exact ⟨rfl, rfl, rfl⟩
  obtain ⟨hkept, hlast, rfl⟩ := hafter
  have htemperatures : Found line options kRtdVal1 card.moment c1.moment after.burstMode values temperatures := by
    rw [← hmoment]
    exact { hfound1 with same := fun hon => hfound1.same (hburst2 (hkept ▸ hon)) }
  have hresistances : Found line options kRtdRes1 c1.moment after.moment after.burstMode ohms resistances :=
    ⟨hfound2.first_le, fun i => (hfound2.lt_last i).trans (by omega), hfound2.ok, hfound2.value,
      fun hon => hfound2.same (hkept ▸ hon)⟩
  refine ⟨fun hon => hburst ▸ hburst1 (hburst2 (hkept ▸ hon)), ⟨c1.moment, temperatures, resistances, htemperatures, hresistances⟩,
    fun memory hstill => ?_⟩
  have hvalues : values = fun i => floatIn memory (options.registerOf kRtdVal1 i) := funext fun i => by
    have hhigh := htemperatures.lt_last i
    rw [htemperatures.value i, hstill _ (htemperatures.first_le i) (by omega)]
  have hohm : ohms = fun i => floatIn memory (options.registerOf kRtdRes1 i) := funext fun i => by
    have hlow := hresistances.first_le i
    rw [hresistances.value i, hstill _ (by omega) (hresistances.lt_last i)]
  rw [hvalues, hohm]

end Values

/-- A bus on which every opening and every read succeeds, and a card without a measurement. -/
def quietLine : I2cLine := ⟨fun _ => true, fun _ => ⟨true, fun _ => 0⟩⟩

/-- The channels in their order. -/
def plainOptions : RtdOptions :=
  ⟨0, false, wholeFloat 60, wholeFloat 390, wholeFloat 2, fun i => i.val + 1⟩

/-- A call of each kind on a quiet card. -/
theorem allowed_calls_quiet :
    ∃ read ∈ (calls quietLine (fun _ => none) plainOptions ⟨false, true, 0, []⟩ [.probe, .readAll]).log,
      Allowed read ∧ (read.1 + read.2 ≤ 35 ∨ 55 ≤ read.1) := by
  have hread : (59, 32) ∈ (calls quietLine (fun _ => none) plainOptions ⟨false, true, 0, []⟩ [.probe, .readAll]).log :=
    .tail _ (.tail _ (.head _))
  exact ⟨_, hread, allowed_calls quietLine (fun _ => none) (by unfold Mapped; decide) [.probe, .readAll] 0 _ hread⟩

/-- A reading of a quiet card, in two bursts. -/
theorem readAll_values_quiet : ∃ reading diagnostics after,
    RtdCard.readAll quietLine (fun _ => none) plainOptions ⟨false, true, 0, []⟩ = (.ok (reading, diagnostics), after) ∧
      ∃ middle temperatures resistances,
        Found quietLine plainOptions kRtdVal1 0 middle after.burstMode reading.temperatureC temperatures ∧
        Found quietLine plainOptions kRtdRes1 middle after.moment after.burstMode reading.resistanceOhm resistances := by
  obtain ⟨reading, diagnostics, after, hread⟩ : ∃ reading diagnostics after,
      RtdCard.readAll quietLine (fun _ => none) plainOptions ⟨false, true, 0, []⟩ =
        (.ok (reading, diagnostics), after) := ⟨_, _, _, rfl⟩
  exact ⟨reading, diagnostics, after, hread, (readAll_values hread).2.1⟩

end RtdCard

end Coatheal.Sensors
