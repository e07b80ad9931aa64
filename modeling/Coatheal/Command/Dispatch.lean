import Coatheal.Command.Parser
import Coatheal.Heater.ControlLoop
import Coatheal.Motion.Deck

/-!
# The handlers that address a motor or a heater

Every handler turns its first argument, or the motor the parser took away, into
a number and checks it its own way: as a 64-bit number against the heaters or the
motors of the configuration, or narrowed to an `int` against the channels. Some
then index the motors' arrays with the number before it was narrowed.
-/

namespace Coatheal.CommandLine

open Coatheal.Library Coatheal.Library.Text Coatheal.Motion

/-- `ParseIndex`: the number at the front of a token, modulo 2^64 after a minus sign. -/
def parseIndex (token : List Char) : Option ℕ := (stoull token).map UInt64.toNat

/-- A 64-bit number as an `int`: its lower half, signed. -/
def toInt (value : ℕ) : ℤ := Int.bmod value (2 ^ 32)

/-- The channel of a number that `valid_motor` accepts. -/
def validMotor (motors value : ℕ) : Option (Fin motors) :=
  if h : 0 ≤ toInt value ∧ (toInt value).toNat < motors then some ⟨(toInt value).toNat, h.2⟩ else none

/-- What a command asks of a motor or a heater that it names by a token. A motor has the channel it was
narrowed to and, where the handler indexes an array too, the number for that. -/
inductive Request (motors : ℕ) where
  | heater (token : Option (List Char)) (command : Heater.Command)
  | motor (token : Option (List Char)) (channel : Fin motors) (entry : Option ℕ)
      (command : MotionCommand motors)
  | query (token : List Char) (channel : Fin motors)
deriving DecidableEq

/-- A step of a sequence as it is written: two or three fields with colons between. -/
def parseStep (spec : List Char) : Option StepSpec :=
  match getlines ':' spec with
  | [target, hold] => some ⟨wholeInt64 target, wholeDouble hold, none⟩
  | [target, hold, speed] => some ⟨wholeInt64 target, wholeDouble hold, some (wholeDouble speed)⟩
  | _ => none

/-- The heaters and the motors under the command thread. The mode is one and stands in both parts. -/
structure Onboard (heaters motors : ℕ) (δ : Type*) where
  controller : Heater.SystemController heaters
  deck : Deck motors δ
  transmitEnabled : Bool

namespace Onboard

variable {heaters motors : ℕ} {δ : Type*}

/-- A heater that is named by the first argument. -/
def heaterRequest (command : Command) (heater : Option ℕ → Heater.Command) :
    Except String (Request motors) :=
  let token := command.args.getD 0 []
  .ok (.heater (some token) (heater (parseIndex token)))

/-- A motor that is named by the first argument and checked as a channel. -/
def channelRequest (command : Command) (request : List Char → ℕ → Fin motors → Request motors) :
    Except String (Request motors) :=
  let token := command.args.getD 0 []
  match (parseIndex token).bind fun value => (validMotor motors value).map (value, ·) with
  | none => .error "invalid motor id"
  | some (value, channel) => .ok (request token value channel)

/-- A motor whose entry in an array is indexed too. -/
def entryRequest (command : Command) (motion : Fin motors → MotionCommand motors) :
    Except String (Request motors) :=
  channelRequest command fun token value channel => .motor (some token) channel (some value) (motion channel)

/-- The motor that the parser took away, or the first one. -/
def motorRequest (command : Command) (motion : Fin motors → MotionCommand motors) :
    Except String (Request motors) :=
  if h : command.motorId < motors then
    .ok (.motor command.motor ⟨command.motorId, h⟩ (some command.motorId) (motion ⟨command.motorId, h⟩))
  else .error "unknown motor id"

/-- The motor of the failsafe plan, which is checked against the motors of the configuration. -/
def planRequest (command : Command) (motion : Fin motors → MotionCommand motors) :
    Except String (Request motors) :=
  let token := command.args.getD 0 []
  match parseIndex token with
  | none => .error "invalid motor id"
  | some value =>
    if h : value < motors then .ok (.motor (some token) ⟨value, h⟩ (some value) (motion ⟨value, h⟩))
    else .error "invalid motor id"

/-- What a command asks for, if it takes the number of a motor or a heater. -/
def request (s : Onboard heaters motors δ) (command : Command) :
    Option (Except String (Request motors)) :=
  let arg (i : ℕ) := command.args.getD i []
  let number (i : ℕ) : Option (Option ℚ) := command.args[i]?.map wholeDouble
  match command.type with
  | .setHeaterDuty => some (heaterRequest command fun index => .setHeaterDuty index (wholeDouble (arg 1)))
  | .heaterTest =>
    some (heaterRequest command fun index => .heaterTest index (wholeDouble (arg 1)) (wholeDouble (arg 2)))
  | .setPid =>
    let gains (all : Bool) (index : Option ℕ) : Heater.Command :=
      .setPid all index (wholeDouble (arg 1)) (wholeDouble (arg 2)) (wholeDouble (arg 3))
    if arg 0 = "ALL".toList ∨ arg 0 = "all".toList then some (.ok (.heater none (gains true none)))
    else some (heaterRequest command (gains false))
  | .pidTuneStart => some (heaterRequest command fun index =>
      .pidTuneStart index (wholeDouble (arg 1)) (number 2) (command.args[3]?.map parseIndex))
  | .setTempTarget => some (heaterRequest command fun index => .setTempTarget index (wholeDouble (arg 1)))
  | .clearTempTarget => some (heaterRequest command .clearTempTarget)
  | .setPositionZero => some (entryRequest command .setPositionZero)
  | .stepLossAck => some (channelRequest command fun token _ channel =>
      .motor (some token) channel none (.stepLossAck channel))
  | .bendSeqLoad => some (entryRequest command fun channel =>
      .bendSeqLoad channel (String.ofList (arg 1)) ((command.args.drop 2).map parseStep))
  | .bendSeqRun => some do
    s.deck.needRun
    if s.deck.linkLossFallbackActive then .error "cannot start sequence during link-loss fallback"
    entryRequest command fun channel => .bendSeqRun channel (String.ofList (arg 1))
  | .bendSeqPause => some (entryRequest command .bendSeqPause)
  | .bendSeqResume => some (entryRequest command .bendSeqResume)
  | .bendSeqStop => some (entryRequest command .bendSeqStop)
  | .bendSeqClear => some (entryRequest command fun channel =>
      .bendSeqClear channel (command.args[1]?.map String.ofList))
  | .bendSeqStatus | .motorDebug => some (channelRequest command fun token _ channel => .query token channel)
  | .fallbackPlan => some (planRequest command fun motor =>
      .fallbackPlan motor (wholeInt64 (arg 1)) (wholeDouble (arg 2)) (number 3))
  | .stepperMove => some (motorRequest command fun motor => .stepperMove motor (wholeInt64 (arg 0)))
  | .stepperMoveTo | .stepperBend => some (motorRequest command fun motor =>
      .stepperMoveTo motor (wholeInt64 (arg 0)) (number 1))
  | .stepperMoveMm => some (motorRequest command fun motor => .stepperMoveMm motor (wholeDouble (arg 0)))
  | .stepperMoveToMm => some (motorRequest command fun motor =>
      .stepperMoveToMm motor (wholeDouble (arg 0)) (number 1))
  | .stepperRotate => some (motorRequest command fun motor => .stepperRotate motor (wholeDouble (arg 0)))
  | .stepperHome => some (motorRequest command .stepperHome)
  | .stepperStop => some (motorRequest command .stepperStop)
  | .stepperSetSpeed => some (motorRequest command fun motor => .stepperSetSpeed motor (wholeDouble (arg 0)))
  | .stepperSetAccel => some (motorRequest command fun motor => .stepperSetAccel motor (wholeDouble (arg 0)))
  | .stepperSetCurrent =>
    some (motorRequest command fun motor => .stepperSetCurrent motor (wholeDouble (arg 0)))
  | .stepperSetMicrostep =>
    some (motorRequest command fun motor => .stepperSetMicrostep motor ((parseIndex (arg 0)).map toInt))
  | .stepperEnable => some (motorRequest command .stepperEnable)
  | .stepperDisable => some (motorRequest command .stepperDisable)
  | .pullArm => some (motorRequest command .pullArm)
  | .pullExecute => some (motorRequest command .pullExecute)
  | _ => none

/-- The heaters are switched off before these are carried out. -/
def inhibitsHeaters : MotionCommand motors → Bool
  | .stepperMove _ _ | .stepperMoveTo _ _ _ | .stepperMoveMm _ _ | .stepperMoveToMm _ _ _
  | .stepperRotate _ _ | .stepperHome _ | .pullArm _ | .pullExecute _ => true
  | _ => false

/-- The relay duty of a tune, if one was given. -/
def checkRelayDuty : Option (Option ℚ) → Except String Unit
  | none => .ok ()
  | some none => .error "relay duty must be in (0, 1]"
  | some (some duty) => if duty ≤ 0 ∨ 1 < duty then .error "relay duty must be in (0, 1]" else .ok ()

/-- The cycles of a tune, if they were given. -/
def checkCycles : Option (Option ℕ) → Except String Unit
  | none => .ok ()
  | some none => .error "cycles must be 1..10"
  | some (some cycles) => if cycles < 1 ∨ 10 < cycles then .error "cycles must be 1..10" else .ok ()

/-- The checks of a heater command before its number indexes anything. -/
def checkBeforeHeater (c : Heater.SystemController heaters) (motionHeld : Bool) :
    Heater.Command → Except String Unit
  | .setHeaterDuty index duty => do
    c.checkHeatCommand
    match index, duty with
    | some index, some duty =>
      Heater.SystemController.checkIndex heaters (some index)
      c.checkDuty duty
    | _, _ => .error "invalid args"
  | .pidTuneStart index setpoint relayDuty cycles => do
    if c.mode ≠ .run then .error "RUN mode required"
    Heater.SystemController.checkIndex heaters index
    Heater.SystemController.checkRange setpoint c.config.targetMinC c.config.targetMaxC
      "setpoint outside heater target limits"
    checkRelayDuty relayDuty
    checkCycles cycles
  | .setTempTarget index target => do
    c.checkHeatCommand
    match index, target with
    | some index, some target =>
      if heaters ≤ index then .error "invalid target args"
      Heater.SystemController.checkRange (some target) c.config.targetMinC c.config.targetMaxC
        "target outside configured limits"
    | _, _ => .error "invalid target args"
  | command => c.check motionHeld command

/-- The checks of a motor command before its number indexes anything. A motor that the parser took away
counts as used at once, and so does a channel that is looked up. -/
def checkBeforeMotor (platform : Platform ℚ δ) (d : Deck motors δ) :
    MotionCommand motors → Except String Unit
  | .bendSeqLoad _ name specs => do
    if isSequenceNameValid name = false then .error "invalid sequence name"
    let _ ← checkSteps platform.shown d.cfg specs
  | .fallbackPlan _ target hold speed => do
    let refusal := "invalid target (|usteps| must be <= stepper.max_position_steps)"
    let target ← Deck.need refusal target
    if abs64 target.toInt > d.cfg.maxPositionSteps then .error refusal
    let hold ← Deck.need "invalid hold_s (0..86400)" hold
    if hold < 0 ∨ kMaxHoldSeconds < hold then .error "invalid hold_s (0..86400)"
    let _ ← checkSpeed d.cfg
      ("invalid speed_hz (0 < hz <= " ++ speedCeilingText platform.shown d.cfg ++ ")") speed
  | _ => .ok ()

/-- The checks of a motor command before it indexes an entry of an array. -/
def checkBeforeEntry (platform : Platform ℚ δ) (d : Deck motors δ) :
    MotionCommand motors → Except String Unit
  | .setPositionZero channel => d.check platform (.setPositionZero channel)
  | .bendSeqRun channel _ => do
    d.needZeroed channel
    if (d.rig.channels channel).enabled = false then .error "motor must be enabled first"
    d.needCertain channel
  | .bendSeqResume channel => do
    d.needRun
    d.needZeroed channel
    d.needCertain channel
  | command => checkBeforeMotor platform d command

/-- A motor holds the lock. -/
def motionHeld (s : Onboard heaters motors δ) : Bool := s.deck.rig.lock.holder.isSome

/-- The checks of a request before its number indexes anything. -/
def checkBeforeUse (platform : Platform ℚ δ) (s : Onboard heaters motors δ) :
    Request motors → Except String Unit
  | .heater _ command => checkBeforeHeater s.controller s.motionHeld command
  | .motor _ _ _ command => checkBeforeMotor platform s.deck command
  | .query _ _ => .ok ()

/-- A request is refused or carried out. There is no state after an entry was indexed that is not there. -/
def carryOut (platform : Platform ℚ δ) (s : Onboard heaters motors δ) (now : ℤ) :
    Request motors → Except String (Option (Onboard heaters motors δ))
  | .heater _ command =>
    match s.controller.receive s.motionHeld command with
    | .error text => .error text
    | .ok received =>
      (received.carryOut now command).map fun after =>
        some { s with controller := { after with pending := none } }
  | .motor _ _ entry command =>
    if entry.all (· < motors) then
      (s.deck.obey platform command).map fun deck => some { s with
        deck := deck
        controller := if inhibitsHeaters command then s.controller.inhibitHeatersForMotion else s.controller }
    else (checkBeforeEntry platform s.deck command).map fun _ => none
  | .query _ _ => .ok (some s)

end Onboard

/-- How a line is answered: it is refused and nothing changes, or its request is carried out. -/
inductive Outcome (heaters motors : ℕ) (δ : Type*) where
  | refused (text : String)
  | carriedOut (request : Request motors) (after : Option (Onboard heaters motors δ))

namespace Onboard

variable {heaters motors : ℕ} {δ : Type*}

/-- The commands that are heard during radio silence. -/
def heardInSilence : CommandType → Bool
  | .radioResume | .radioSilence | .status | .ping => true
  | _ => false

/-- What a line asks of a motor or a heater, or why it is refused before it has a number. Other lines ask
nothing of them. -/
def asked (s : Onboard heaters motors δ) (line : List Char) : Option (Except String (Request motors)) :=
  match parseLine motors line with
  | .error text => some (.error text)
  | .ok command =>
    if s.transmitEnabled = false ∧ heardInSilence command.type = false then
      some (.error "radio silence active")
    else s.request command

/-- How a line is answered that is refused or asks something of a motor or a heater. -/
def handleCommandLine (platform : Platform ℚ δ) (s : Onboard heaters motors δ) (now : ℤ)
    (line : List Char) : Option (Outcome heaters motors δ) :=
  match s.asked line with
  | none => none
  | some (.error text) => some (.refused text)
  | some (.ok request) =>
    match s.carryOut platform now request with
    | .error text => some (.refused text)
    | .ok after => some (.carriedOut request after)

/-- The state after an answer. -/
def after (s : Onboard heaters motors δ) : Outcome heaters motors δ → Option (Onboard heaters motors δ)
  | .refused _ => some s
  | .carriedOut _ after => after

/-- The request of a line whose number its handler comes to index with. -/
def uses (platform : Platform ℚ δ) (s : Onboard heaters motors δ) (line : List Char) :
    Option (Request motors) :=
  match s.asked line with
  | some (.ok request) => if (s.checkBeforeUse platform request).isOk then some request else none
  | _ => none

end Onboard

end Coatheal.CommandLine
