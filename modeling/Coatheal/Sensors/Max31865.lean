import Coatheal.Library.Run
import Coatheal.Sensors.Resistance

/-!
# The clicks that measure the specimens

`max31865_adapter.cpp`: a MAX31865 is spoken to over a bus whose every exchange
may fail or answer anything, and a write that is reported as failed may still have
reached the chip. Its bias current heats the specimen, so that it must not stay on
after a conversation, and a click that is not there answers with an idle line.
-/

namespace Coatheal.Sensors

open Config Library Library.PyText
open Ground (floatMul wholeFloat)

/-- `kRegConfig`. -/
def regConfig : BitVec 8 := 0x00

/-- `kRegRtdMsb`. -/
def regRtdMsb : BitVec 8 := 0x01

/-- `kRegFaultStatus`. -/
def regFaultStatus : BitVec 8 := 0x07

/-- `kWriteBit`. -/
def writeBit : BitVec 8 := 0x80

/-- `kBitVbias`. -/
def bitVbias : BitVec 8 := 0x80

/-- `kBit1Shot`. -/
def bit1Shot : BitVec 8 := 0x20

/-- `kBitFaultClr`. -/
def bitFaultClr : BitVec 8 := 0x02

/-- `kBit50Hz`. -/
def bit50Hz : BitVec 8 := 0x01

/-- `kCfgBiasOn`. -/
def cfgBiasOn : BitVec 8 := bitVbias ||| bit50Hz

/-- `kCfgBiasOn1Shot`. -/
def cfgBiasOn1Shot : BitVec 8 := bitVbias ||| bit1Shot ||| bit50Hz

/-- `kCfgBiasOff`. -/
def cfgBiasOff : BitVec 8 := bit50Hz

/-- `kCfgFaultClear`. -/
def cfgFaultClear : BitVec 8 := bitFaultClr ||| bit50Hz

/-- `kCfgProbe`. -/
def cfgProbe : BitVec 8 := bit50Hz

/-- `kNearFullScaleCode`. -/
def nearFullScaleCode : ℕ := 32760

/-- A configuration turns the bias on. -/
def biasOn (config : BitVec 8) : Bool := decide (config &&& bitVbias ≠ 0)

/-- How an exchange ends: what is reported, whether it reached the chip, and the bytes that came back. -/
structure SpiAnswer where
  ok : Bool
  reached : Bool
  rx : ℕ → BitVec 8
  heard : ok = true → reached = true

/-- The bus of a click: how each opening and each exchange ends. -/
structure SpiLine where
  opens : ℕ → Bool
  answer : ℕ → SpiAnswer

/-- An exchange that was made. -/
structure SpiExchange where
  tx : List (BitVec 8)
  ok : Bool

/-- What the adapter keeps of a click, the exchanges that were made, the newest first, and the configuration of the chip. -/
structure Click where
  isOpen : Bool
  openings : ℕ
  log : List SpiExchange
  config : BitVec 8

/-- A write of the configuration. -/
def SpiExchange.isWrite (exchange : SpiExchange) : Bool := decide (exchange.tx.head? = some (regConfig ||| writeBit))

namespace Click

variable (line : SpiLine) (click : Click)

/-- The newest write of the configuration. -/
def lastWrite : Option SpiExchange := click.log.find? SpiExchange.isWrite

/-- `open_ = false`: the bus is opened again the next time. -/
def close : Click := { click with isOpen := false }

/-- How the next exchange ends. -/
def next : SpiAnswer := line.answer click.log.length

/-- `WriteConfig`. -/
def writeConfig (value : BitVec 8) : Bool × Click :=
  let answer := click.next line
  (answer.ok,
    { click with
      log := ⟨[regConfig ||| writeBit, value], answer.ok⟩ :: click.log
      config := if answer.reached then value else click.config })

/-- `ReadRegister`. -/
def readRegister (addr : BitVec 8) : Option (BitVec 8) × Click :=
  let answer := click.next line
  (if answer.ok then some (answer.rx 1) else none, { click with log := ⟨[addr &&& 0x7F, 0], answer.ok⟩ :: click.log })

/-- `ReadRtdCode`. -/
def readRtdCode : Option (BitVec 8 × BitVec 8) × Click :=
  let answer := click.next line
  (if answer.ok then some (answer.rx 1, answer.rx 2) else none,
    { click with log := ⟨[regRtdMsb, 0, 0], answer.ok⟩ :: click.log })

/-- `EnsureOpen` of an adapter with a bus. -/
def ensureOpen : Except String Unit × Click :=
  if click.isOpen then (.ok (), click)
  else if line.opens click.openings then (.ok (), { click with isOpen := true, openings := click.openings + 1 })
  else (.error "BUS_OPEN_FAILED", { click with openings := click.openings + 1 })

/-- `VerifyPresence`. A pending conversion does not count. -/
def verifyPresence : Except String Unit × Click :=
  let (written, click) := click.writeConfig line cfgProbe
  if !written then (.error "CONFIG_WRITE_FAILED", click.close)
  else
    match click.readRegister line regConfig with
    | (none, click) => (.error "CONFIG_READ_FAILED", click.close)
    | (some readback, click) =>
      if readback &&& ~~~bit1Shot ≠ cfgProbe then (.error "CLICK_NOT_DETECTED", click) else (.ok (), click)

/-- `Probe`. -/
def probe : Except String Unit × Click :=
  match click.ensureOpen line with
  | (.error error, click) => (.error error, click)
  | (.ok (), click) => click.verifyPresence line

/-- `CodeToOhms`. -/
def codeToOhms (code : ℕ) (referenceOhm : Double) : Double :=
  floatMul (floatMul (wholeFloat code) referenceOhm) ⟨false, .finite (1 / 32768)⟩

/-- The reading of a code, once the bias is off; the fault is read and cleared where the code cannot be trusted. -/
def judge (referenceOhm : Double) (msb lsb : BitVec 8) : ClickReading × Click :=
  let code := (msb.toNat * 256 + lsb.toNat) / 2
  let resistanceOhm := codeToOhms code referenceOhm
  if lsb.getLsbD 0 || decide (nearFullScaleCode ≤ code) then
    let (fault, click) := click.readRegister line regFaultStatus
    ({ resistanceOhm := resistanceOhm, valid := false, outOfRange := true, faultBits := fault.getD 0 },
      (click.writeConfig line cfgFaultClear).2)
  else ({ resistanceOhm := resistanceOhm, valid := true, outOfRange := false, faultBits := 0 }, click)

/-- The conversion of a click that is there. -/
def convert (referenceOhm : Double) : Except String ClickReading × Click :=
  let (biased, click) := click.writeConfig line cfgBiasOn
  if !biased then (.error "BIAS_ON_WRITE_FAILED", click.close)
  else
    let (started, click) := click.writeConfig line cfgBiasOn1Shot
    if !started then (.error "ONE_SHOT_WRITE_FAILED", (click.close.writeConfig line cfgBiasOff).2)
    else
      match click.readRtdCode line with
      | (none, click) => (.error "RTD_READ_FAILED", (click.close.writeConfig line cfgBiasOff).2)
      | (some (msb, lsb), click) =>
        let (released, click) := click.writeConfig line cfgBiasOff
        if !released then (.error "BIAS_OFF_WRITE_FAILED", click.close)
        else
          let (reading, click) := click.judge line referenceOhm msb lsb
          (.ok reading, click)

/-- `ReadOneShot`. -/
def readOneShot (referenceOhm : Double) : Except String ClickReading × Click :=
  match click.probe line with
  | (.error error, click) => (.error error, click)
  | (.ok (), click) => click.convert line referenceOhm

end Click

/-- A conversation: the question whether the click is there, or a conversion. -/
inductive Conversation where
  | probe
  | readOneShot

/-- How a conversation ends. -/
def Click.converse (line : SpiLine) (referenceOhm : Double) (click : Click) : Conversation → Except String Unit × Click
  | .probe => click.probe line
  | .readOneShot => ((click.readOneShot line referenceOhm).1.map fun _ => (), (click.readOneShot line referenceOhm).2)

namespace Click

variable {line : SpiLine} {click : Click}

/-- The bias is off, or the newest write of the configuration was reported as failed. -/
def Resting (click : Click) : Prop :=
  biasOn click.config = true → ∃ exchange, click.lastWrite = some exchange ∧ exchange.ok = false

/-- The bus is opened again after a failure; the chip keeps what it has. -/
theorem Resting.close (h : Resting click) : Resting click.close := h

/-- A read leaves the configuration and the newest write. -/
theorem readRegister_frame {addr : BitVec 8} {value : Option (BitVec 8)} {after : Click}
    (h : click.readRegister line addr = (value, after)) (haddr : addr &&& 0x7F ≠ regConfig ||| writeBit) :
    after.config = click.config ∧ after.lastWrite = click.lastWrite := by
  obtain rfl : (click.readRegister line addr).2 = after := congrArg Prod.snd h
  refine ⟨rfl, List.find?_cons_of_neg ?_⟩
  simpa [SpiExchange.isWrite] using haddr

/-- A write is the newest one, and has reached the chip if it is reported as done. -/
theorem writeConfig_spec {value : BitVec 8} {written : Bool} {after : Click}
    (h : click.writeConfig line value = (written, after)) :
    after.lastWrite = some ⟨[regConfig ||| writeBit, value], written⟩ ∧ (written = true → after.config = value) := by
  obtain ⟨rfl, rfl⟩ := Prod.mk.inj h
  exact ⟨List.find?_cons_of_pos (decide_eq_true rfl), fun hok => if_pos ((click.next line).heard hok)⟩

/-- A write that failed leaves the click resting. -/
theorem resting_of_failed {value : BitVec 8} {after : Click} (h : click.writeConfig line value = (false, after)) :
    Resting after :=
  fun _ => ⟨_, (writeConfig_spec h).1, rfl⟩

/-- A write that turns the bias off leaves the click resting, whether it succeeds or not. -/
theorem resting_of_off {value : BitVec 8} {written : Bool} {after : Click}
    (h : click.writeConfig line value = (written, after)) (hoff : biasOn value = false) : Resting after := by
  cases written with
  | false => exact resting_of_failed h
  | true =>
    intro hon
    rw [(writeConfig_spec h).2 rfl, hoff] at hon
    cases hon

/-- A click that rests does so after something that leaves its configuration and its newest write. -/
theorem Resting.of_frame {after : Click} (h : Resting click)
    (hframe : after.config = click.config ∧ after.lastWrite = click.lastWrite) : Resting after := by
  rw [Resting, hframe.1, hframe.2]
  exact h

/-- After a conversation the click rests, and if that ended well its bias is off. -/
def Settles {α : Type} (ended : Except String α × Click) : Prop :=
  Resting ended.2 ∧ (ended.1.isOk = true → biasOn ended.2.config = false)

/-- A conversation that fails has to leave the click resting. -/
theorem settles_error {α : Type} {error : String} (h : Resting click) :
    Settles ((.error error, click) : Except String α × Click) :=
  ⟨h, fun hok => absurd hok Bool.false_ne_true⟩

/-- A conversation that ends well has to leave the bias off. -/
theorem settles_ok {α : Type} {value : α} (hoff : biasOn click.config = false) :
    Settles ((.ok value, click) : Except String α × Click) :=
  ⟨fun hon => absurd (hoff.symm.trans hon) Bool.false_ne_true, fun _ => hoff⟩

/-- The question whether the click is there settles it. -/
theorem settles_verifyPresence (line : SpiLine) (click : Click) : Settles (click.verifyPresence line) := by
  have hoff : biasOn cfgProbe = false := by decide
  have haddr : regConfig &&& 0x7F ≠ regConfig ||| writeBit := by decide
  rw [verifyPresence]
  rcases hwrite : click.writeConfig line cfgProbe with ⟨_ | _, written⟩
  · exact settles_error (resting_of_off hwrite hoff).close
  · have hconfig : biasOn written.config = false := by rw [(writeConfig_spec hwrite).2 rfl, hoff]
    dsimp only
    rcases hread : written.readRegister line regConfig with ⟨_ | readback, after⟩
    · exact settles_error ((resting_of_off hwrite hoff).of_frame (readRegister_frame hread haddr)).close
    · have hframe := readRegister_frame hread haddr
      simp only [Bool.not_true, Bool.false_eq_true, if_false]
      split
      · exact settles_error ((resting_of_off hwrite hoff).of_frame hframe)
      · exact settles_ok (by rw [hframe.1, hconfig])

/-- After an opening the chip is as it was. -/
theorem ensureOpen_frame {opened : Except String Unit} {after : Click} (h : click.ensureOpen line = (opened, after)) :
    after.config = click.config ∧ after.lastWrite = click.lastWrite := by
  obtain rfl : (click.ensureOpen line).2 = after := congrArg Prod.snd h
  rw [ensureOpen]
  repeat' split
  all_goals exact ⟨rfl, rfl⟩

/-- A probe settles a click that rests. -/
theorem settles_probe (hrest : Resting click) : Settles (click.probe line) := by
  rw [probe]
  rcases hopen : click.ensureOpen line with ⟨_ | _, after⟩
  · exact settles_error (hrest.of_frame (ensureOpen_frame hopen))
  · exact settles_verifyPresence line after

/-- A reading leaves the bias off. -/
theorem biasOn_judge (line : SpiLine) (referenceOhm : Double) (msb lsb : BitVec 8) (hoff : biasOn click.config = false) :
    biasOn (click.judge line referenceOhm msb lsb).2.config = false := by
  rw [judge]
  split
  · change biasOn (if _ then cfgFaultClear else click.config) = false
    split
    · decide
    · exact hoff
  · exact hoff

/-- A conversion settles the click. -/
theorem settles_convert (line : SpiLine) (referenceOhm : Double) (click : Click) :
    Settles (click.convert line referenceOhm) := by
  have hoff : biasOn cfgBiasOff = false := by decide
  rw [convert]
  rcases hbias : click.writeConfig line cfgBiasOn with ⟨_ | _, biased⟩
  · exact settles_error (resting_of_failed hbias).close
  dsimp only
  rcases hstart : biased.writeConfig line cfgBiasOn1Shot with ⟨_ | _, started⟩
  · exact settles_error (resting_of_off rfl hoff)
  dsimp only
  rcases hcode : started.readRtdCode line with ⟨_ | ⟨msb, lsb⟩, read⟩
  · exact settles_error (resting_of_off rfl hoff)
  dsimp only
  rcases hrelease : read.writeConfig line cfgBiasOff with ⟨_ | _, released⟩
  · exact settles_error (resting_of_off hrelease hoff).close
  · refine settles_ok (biasOn_judge line referenceOhm msb lsb ?_)
    rw [(writeConfig_spec hrelease).2 rfl, hoff]

/-- A conversion settles a click that rests. -/
theorem settles_readOneShot (referenceOhm : Double) (hrest : Resting click) :
    Settles (click.readOneShot line referenceOhm) := by
  rw [readOneShot]
  have hprobe : Settles (click.probe line) := settles_probe hrest
  rcases hpresent : click.probe line with ⟨_ | _, present⟩
  · rw [hpresent] at hprobe
    exact settles_error hprobe.1
  · exact settles_convert line referenceOhm present

/-- The click after some conversations. -/
def after (line : SpiLine) (referenceOhm : Double) (click : Click) (conversations : List Conversation) : Click :=
  Library.run (fun click conversation => (click.converse line referenceOhm conversation).2) click conversations

/-- Every conversation settles a click that rests. -/
theorem settles_converse (referenceOhm : Double) (hrest : Resting click) (conversation : Conversation) :
    Settles (click.converse line referenceOhm conversation) := by
  cases conversation with
  | probe => exact settles_probe hrest
  | readOneShot =>
    have hone : Settles (click.readOneShot line referenceOhm) := settles_readOneShot referenceOhm hrest
    obtain ⟨hafter, hoff⟩ := hone
    refine ⟨hafter, fun hok => hoff ?_⟩
    rw [← hok, converse]
    cases (click.readOneShot line referenceOhm).1 with
    | error error => rfl
    | ok reading => rfl

/-- A click rests after any conversations. -/
theorem resting_after (line : SpiLine) (referenceOhm : Double) (hrest : Resting click) (conversations : List Conversation) :
    Resting (click.after line referenceOhm conversations) := by
  induction conversations generalizing click with
  | nil => exact hrest
  | cons conversation conversations ih => exact ih (settles_converse referenceOhm hrest conversation).1

/-- Whatever the bus does over any conversations: the bias of a click stays on only if the newest write of the configuration
was reported as failed, and it is off after every conversation that ends well. -/
theorem biasOn_after (line : SpiLine) (referenceOhm : Double) {start : Click} (hstart : biasOn start.config = false)
    (conversations : List Conversation) :
    (biasOn (start.after line referenceOhm conversations).config = true →
        ∃ exchange, (start.after line referenceOhm conversations).lastWrite = some exchange ∧ exchange.ok = false) ∧
      ∀ conversation,
        ((start.after line referenceOhm conversations).converse line referenceOhm conversation).1.isOk = true →
          biasOn ((start.after line referenceOhm conversations).converse line referenceOhm conversation).2.config = false := by
  have hrest : Resting start := fun hon => absurd (hstart.symm.trans hon) Bool.false_ne_true
  have hafter := resting_after line referenceOhm hrest conversations
  exact ⟨hafter, fun conversation => (settles_converse referenceOhm hafter conversation).2⟩

end Click

/-- An idle line that is pulled down, on which every exchange succeeds. -/
def pulledDown : SpiLine where
  opens _ := true
  answer _ := ⟨true, true, fun _ => 0x00, fun _ => rfl⟩

/-- A click of which nothing is known but that its bias is off. -/
def freshClick : Click := ⟨false, 0, [], cfgBiasOff⟩

/-- A probe, a conversion and a probe of a click on a line that is pulled down. -/
theorem Click.biasOn_after_pulledDown :
    (biasOn (freshClick.after pulledDown (wholeFloat 470) [.probe, .readOneShot]).config = true →
        ∃ exchange, (freshClick.after pulledDown (wholeFloat 470) [.probe, .readOneShot]).lastWrite = some exchange ∧
          exchange.ok = false) ∧
      ∀ conversation,
        ((freshClick.after pulledDown (wholeFloat 470) [.probe, .readOneShot]).converse pulledDown (wholeFloat 470)
          conversation).1.isOk = true →
        biasOn ((freshClick.after pulledDown (wholeFloat 470) [.probe, .readOneShot]).converse pulledDown (wholeFloat 470)
          conversation).2.config = false :=
  Click.biasOn_after pulledDown (wholeFloat 470) (by decide) [.probe, .readOneShot]

/-- Nothing answers: every byte is an idle level of the line. -/
def SpiLine.Idle (line : SpiLine) : Prop := ∀ n k, (line.answer n).rx k = 0x00 ∨ (line.answer n).rx k = 0xFF

namespace Click

variable {line : SpiLine} {click : Click}

/-- No write has turned the bias on. -/
def Unbiased (click : Click) : Prop :=
  ∀ exchange ∈ click.log, exchange.isWrite = true → biasOn (exchange.tx.getD 1 0) = false

/-- A write that keeps the bias off. -/
theorem Unbiased.writeConfig {value : BitVec 8} (h : Unbiased click) (hoff : biasOn value = false) :
    Unbiased (click.writeConfig line value).2 :=
  List.forall_mem_cons.mpr ⟨fun _ => hoff, h⟩

/-- A read is no write. -/
theorem Unbiased.readRegister {addr : BitVec 8} (h : Unbiased click) (haddr : addr &&& 0x7F ≠ regConfig ||| writeBit) :
    Unbiased (click.readRegister line addr).2 :=
  List.forall_mem_cons.mpr ⟨fun hwrite => absurd (Option.some.inj (of_decide_eq_true hwrite)) haddr, h⟩

/-- What is read of an idle line is not the configuration that was written. -/
theorem idle_ne_cfgProbe {value : BitVec 8} (h : value = 0x00 ∨ value = 0xFF) : value &&& ~~~bit1Shot ≠ cfgProbe := by
  rcases h with rfl | rfl
  · decide
  · decide

/-- On an idle line no click is found, and none is biased. -/
theorem verifyPresence_idle (hidle : line.Idle) (click : Click) :
    (click.verifyPresence line).1.isOk = false ∧ (Unbiased click → Unbiased (click.verifyPresence line).2) := by
  have hwrite : Unbiased click → Unbiased (click.writeConfig line cfgProbe).2 := fun h => h.writeConfig (by decide)
  have hread : Unbiased click → Unbiased ((click.writeConfig line cfgProbe).2.readRegister line regConfig).2 :=
    fun h => (hwrite h).readRegister (by decide)
  rw [verifyPresence]
  rcases hwritten : click.writeConfig line cfgProbe with ⟨_ | _, written⟩
  · rw [hwritten] at hwrite
    exact ⟨rfl, hwrite⟩
  · rw [hwritten] at hread
    dsimp only
    rcases hvalue : written.readRegister line regConfig with ⟨_ | readback, seen⟩
    · rw [hvalue] at hread
      exact ⟨rfl, hread⟩
    · rw [hvalue] at hread
      have hlevel : readback = 0x00 ∨ readback = 0xFF := by
        have hfirst : (written.readRegister line regConfig).1 = some readback := congrArg Prod.fst hvalue
        rw [Click.readRegister] at hfirst
        obtain ⟨-, hsame⟩ := Option.ite_none_right_eq_some.mp hfirst
        rw [← Option.some.inj hsame]
        exact hidle _ 1
      simp only [Bool.not_true, Bool.false_eq_true, if_false, if_pos (idle_ne_cfgProbe hlevel)]
      exact ⟨rfl, hread⟩

/-- A probe of an idle line fails. -/
theorem probe_idle (hidle : line.Idle) (click : Click) :
    (click.probe line).1.isOk = false ∧ (Unbiased click → Unbiased (click.probe line).2) := by
  have hopen : Unbiased click → Unbiased (click.ensureOpen line).2 := by
    intro h
    rw [ensureOpen]
    repeat' split
    all_goals exact h
  rw [probe]
  rcases hopened : click.ensureOpen line with ⟨_ | _, opened⟩
  · rw [hopened] at hopen
    exact ⟨rfl, hopen⟩
  · rw [hopened] at hopen
    obtain ⟨hfail, hkeep⟩ := verifyPresence_idle hidle opened
    exact ⟨hfail, fun h => hkeep (hopen h)⟩

/-- No conversion is tried on an idle line. -/
theorem readOneShot_idle (hidle : line.Idle) (referenceOhm : Double) (click : Click) :
    (click.readOneShot line referenceOhm).1.isOk = false ∧
      (Unbiased click → Unbiased (click.readOneShot line referenceOhm).2) := by
  have hprobe := probe_idle hidle click
  rw [readOneShot]
  rcases hpresent : click.probe line with ⟨_ | _, present⟩
  · rw [hpresent] at hprobe
    exact ⟨rfl, hprobe.2⟩
  · rw [hpresent] at hprobe
    exact absurd hprobe.1.symm Bool.false_ne_true

/-- A conversation with an idle line fails. -/
theorem converse_idle (hidle : line.Idle) (referenceOhm : Double) (click : Click) (conversation : Conversation) :
    (click.converse line referenceOhm conversation).1.isOk = false ∧
      (Unbiased click → Unbiased (click.converse line referenceOhm conversation).2) := by
  cases conversation with
  | probe => exact probe_idle hidle click
  | readOneShot =>
    obtain ⟨hfail, hkeep⟩ := readOneShot_idle hidle referenceOhm click
    refine ⟨?_, hkeep⟩
    rw [← hfail, converse]
    cases (click.readOneShot line referenceOhm).1 with
    | error error => rfl
    | ok reading => rfl

/-- A click that is not there is never taken for one: whatever else the bus does, every conversation of every run fails, and
no write ever turns the bias on. -/
theorem after_idle (hidle : line.Idle) (referenceOhm : Double) {start : Click} (hstart : Unbiased start)
    (conversations : List Conversation) :
    Unbiased (start.after line referenceOhm conversations) ∧
      ∀ conversation,
        ((start.after line referenceOhm conversations).converse line referenceOhm conversation).1.isOk = false := by
  have hafter : Unbiased (start.after line referenceOhm conversations) := by
    induction conversations generalizing start with
    | nil => exact hstart
    | cons conversation conversations ih => exact ih ((converse_idle hidle referenceOhm start conversation).2 hstart)
  exact ⟨hafter, fun conversation => (converse_idle hidle referenceOhm _ conversation).1⟩

end Click

/-- No write biases a click that is not there. -/
theorem Click.after_idle_pulledDown :
    Click.Unbiased (freshClick.after pulledDown (wholeFloat 470) [.probe, .readOneShot]) ∧
      ∀ conversation,
        ((freshClick.after pulledDown (wholeFloat 470) [.probe, .readOneShot]).converse pulledDown (wholeFloat 470)
          conversation).1.isOk = false :=
  Click.after_idle (fun _ _ => Or.inl rfl) (wholeFloat 470) (fun _ hmem => absurd hmem List.not_mem_nil)
    [.probe, .readOneShot]

end Coatheal.Sensors
