import Coatheal.Library.Text

/-!
# The command parser

A line is cut into words, up to four of which name the command. What follows are
its arguments. Some commands may give their motor first: the parser takes that
argument away when there is one more than the command needs and it could be a
motor.
-/

namespace Coatheal.CommandLine

open Coatheal.Library.Text

/-- The commands of the protocol. -/
inductive CommandType where
  | ping
  | status
  | forceStart
  | forceStop
  | heatersOff
  | resetCtrl
  | shutdownSafe
  | check
  | components
  | arm
  | disarm
  | enterSafe
  | exitSafe
  | armDebug
  | disarmDebug
  | setHeaterDuty
  | setAllDuty
  | heaterTest
  | setPid
  | pidTuneStart
  | pidTuneAbort
  | pidTuneStatus
  | setTempTarget
  | setAllTempTargets
  | clearTempTarget
  | clearTempTargets
  | getThermal
  | getLayout
  | clearOverrides
  | setBenchMode
  | setTickHz
  | radioSilence
  | radioResume
  | setPhase
  | stepperMove
  | stepperMoveTo
  | stepperMoveMm
  | stepperMoveToMm
  | stepperRotate
  | stepperHome
  | stepperStop
  | stepperSetSpeed
  | stepperSetAccel
  | stepperSetCurrent
  | stepperSetMicrostep
  | stepperEnable
  | stepperDisable
  | stepperBend
  | setPositionZero
  | stepLossAck
  | bendSeqLoad
  | bendSeqRun
  | bendSeqPause
  | bendSeqResume
  | bendSeqStop
  | bendSeqStatus
  | bendSeqClear
  | pullArm
  | pullExecute
  | fallbackPlan
  | fallbackArm
  | fallbackDisarm
  | fallbackStatus
  | motorDebug
deriving DecidableEq

/-- The name of a command. -/
def CommandType.toText : CommandType → String
  | ping => "PING"
  | status => "STATUS"
  | forceStart => "FORCE_START"
  | forceStop => "FORCE_STOP"
  | heatersOff => "HEATERS_OFF"
  | resetCtrl => "RESET_CTRL"
  | shutdownSafe => "SHUTDOWN_SAFE"
  | check => "CHECK"
  | components => "COMPONENTS"
  | arm => "ARM"
  | disarm => "DISARM"
  | enterSafe => "ENTER_SAFE"
  | exitSafe => "EXIT_SAFE"
  | armDebug => "ARM_DEBUG"
  | disarmDebug => "DISARM_DEBUG"
  | setHeaterDuty => "SET_HEATER_DUTY"
  | setAllDuty => "SET_ALL_DUTY"
  | heaterTest => "HEATER_TEST"
  | setPid => "SET_PID"
  | pidTuneStart => "PID_TUNE_START"
  | pidTuneAbort => "PID_TUNE_ABORT"
  | pidTuneStatus => "PID_TUNE_STATUS"
  | setTempTarget => "SET_TEMP_TARGET"
  | setAllTempTargets => "SET_ALL_TEMP_TARGETS"
  | clearTempTarget => "CLEAR_TEMP_TARGET"
  | clearTempTargets => "CLEAR_TEMP_TARGETS"
  | getThermal => "GET_THERMAL"
  | getLayout => "GET_LAYOUT"
  | clearOverrides => "CLEAR_OVERRIDES"
  | setBenchMode => "SET_BENCH_MODE"
  | setTickHz => "SET_TICK_HZ"
  | radioSilence => "RADIO_SILENCE"
  | radioResume => "RADIO_RESUME"
  | setPhase => "SET_PHASE"
  | stepperMove => "STEPPER_MOVE"
  | stepperMoveTo => "STEPPER_MOVETO"
  | stepperMoveMm => "STEPPER_MOVE_MM"
  | stepperMoveToMm => "STEPPER_MOVETO_MM"
  | stepperRotate => "STEPPER_ROTATE"
  | stepperHome => "STEPPER_HOME"
  | stepperStop => "STEPPER_STOP"
  | stepperSetSpeed => "STEPPER_SET_SPEED"
  | stepperSetAccel => "STEPPER_SET_ACCEL"
  | stepperSetCurrent => "STEPPER_SET_CURRENT"
  | stepperSetMicrostep => "STEPPER_SET_MICROSTEP"
  | stepperEnable => "STEPPER_ENABLE"
  | stepperDisable => "STEPPER_DISABLE"
  | stepperBend => "STEPPER_BEND"
  | setPositionZero => "SET_POSITION_ZERO"
  | stepLossAck => "STEPLOSS_ACK"
  | bendSeqLoad => "BENDSEQ_LOAD"
  | bendSeqRun => "BENDSEQ_RUN"
  | bendSeqPause => "BENDSEQ_PAUSE"
  | bendSeqResume => "BENDSEQ_RESUME"
  | bendSeqStop => "BENDSEQ_STOP"
  | bendSeqStatus => "BENDSEQ_STATUS"
  | bendSeqClear => "BENDSEQ_CLEAR"
  | pullArm => "PULL_ARM"
  | pullExecute => "PULL_EXECUTE"
  | fallbackPlan => "FALLBACK_PLAN"
  | fallbackArm => "FALLBACK_ARM"
  | fallbackDisarm => "FALLBACK_DISARM"
  | fallbackStatus => "FALLBACK_STATUS"
  | motorDebug => "MOTOR_DEBUG"

/-- All commands. -/
def CommandType.all : List CommandType :=
  [.ping, .status, .forceStart, .forceStop, .heatersOff, .resetCtrl, .shutdownSafe, .check, .components,
    .arm, .disarm, .enterSafe, .exitSafe, .armDebug, .disarmDebug, .setHeaterDuty, .setAllDuty, .heaterTest,
    .setPid, .pidTuneStart, .pidTuneAbort, .pidTuneStatus, .setTempTarget, .setAllTempTargets,
    .clearTempTarget, .clearTempTargets, .getThermal, .getLayout, .clearOverrides, .setBenchMode, .setTickHz,
    .radioSilence, .radioResume, .setPhase, .stepperMove, .stepperMoveTo, .stepperMoveMm, .stepperMoveToMm,
    .stepperRotate, .stepperHome, .stepperStop, .stepperSetSpeed, .stepperSetAccel, .stepperSetCurrent,
    .stepperSetMicrostep, .stepperEnable, .stepperDisable, .stepperBend, .setPositionZero, .stepLossAck,
    .bendSeqLoad, .bendSeqRun, .bendSeqPause, .bendSeqResume, .bendSeqStop, .bendSeqStatus, .bendSeqClear,
    .pullArm, .pullExecute, .fallbackPlan, .fallbackArm, .fallbackDisarm, .fallbackStatus, .motorDebug]

/-- What a command may be called: its name, or one of three short names. -/
def commandMap : List (String × CommandType) :=
  (CommandType.all.map fun type => (type.toText, type)) ++
    [("ON", .forceStart), ("OFF", .forceStop), ("RESET", .resetCtrl)]

/-- How many arguments a command takes. With an optional motor the bounds are those of the rest. -/
inductive Arity where
  | between (low high : ℕ)
  | atLeast (low : ℕ)
  | optionalMotor (low high : ℕ)
  | any

/-- The number of arguments of every command. -/
def CommandType.arity : CommandType → Arity
  | .pidTuneStart => .between 2 4
  | .fallbackPlan => .between 3 4
  | .setPositionZero | .stepLossAck | .bendSeqPause | .bendSeqResume | .bendSeqStop | .bendSeqStatus
  | .motorDebug | .setPhase | .armDebug | .setAllDuty | .setAllTempTargets | .clearTempTarget
  | .setBenchMode | .setTickHz => .between 1 1
  | .check => .any
  | .bendSeqRun | .setHeaterDuty | .setTempTarget => .between 2 2
  | .bendSeqLoad => .atLeast 3
  | .bendSeqClear => .between 1 2
  | .stepperHome | .stepperStop | .stepperEnable | .stepperDisable | .pullArm | .pullExecute =>
    .optionalMotor 0 0
  | .stepperMove | .stepperMoveMm | .stepperRotate | .stepperSetSpeed | .stepperSetAccel
  | .stepperSetCurrent | .stepperSetMicrostep => .optionalMotor 1 1
  | .stepperMoveTo | .stepperMoveToMm | .stepperBend => .optionalMotor 1 2
  | .heaterTest => .between 3 3
  | .setPid => .between 4 4
  | _ => .between 0 0

/-- The number of arguments is one the command takes. -/
def Arity.admits : Arity → ℕ → Bool
  | .between low high, count | .optionalMotor low high, count => low ≤ count && count ≤ high
  | .atLeast low, count => low ≤ count
  | .any, _ => true

/-- A command that was understood. The motor is the argument the parser took away, if it did. -/
structure Command where
  type : CommandType
  args : List (List Char)
  motor : Option (List Char)

/-- The motor of a command, the first one if none was given. -/
def Command.motorId (command : Command) : ℕ := (command.motor.bind wholeNat).getD 0

/-- A token with its letters in capitals. -/
def upper (token : List Char) : List Char := token.map Char.toUpper

/-- The words of a line; commas separate them too. -/
def tokens (line : List Char) : List (List Char) :=
  (((trim isSpace line).map fun c => if c = ',' then ' ' else c).splitOnP isSpace).filter (· ≠ [])

/-- The words of a name, joined. -/
def joined (words : List (List Char)) : List Char := ['_'].intercalate (words.map upper)

/-- The command of a name. -/
def lookup (name : List Char) : Option CommandType :=
  (commandMap.find? fun entry => entry.1.toList = name).map (·.2)

/-- The longest beginning of the words, of at most four, that names a command, and its length. -/
def findCommand (words : List (List Char)) : Option (CommandType × ℕ) :=
  [4, 3, 2, 1].findSome? fun count =>
    if count ≤ words.length then (lookup (joined (words.take count))).map fun type => (type, count) else none

/-- The token could be one of the motors. -/
def isPlausibleMotorId (motorCount : ℕ) (token : List Char) : Bool :=
  decide (token.length ≤ 9) && (wholeNat token).any (· < motorCount)

/-- Take the motor away when there is one argument more than the command needs and it could be one. -/
def extractMotor (motorCount low high : ℕ) (args : List (List Char)) :
    Option (List Char) × List (List Char) :=
  match args with
  | [] => (none, [])
  | first :: rest =>
    if low + 1 ≤ args.length ∧ args.length ≤ high + 1 ∧ isPlausibleMotorId motorCount first then
      (some first, rest)
    else (none, args)

/-- The motor and the arguments that were given to a command. -/
def Arity.extract (motorCount : ℕ) (arity : Arity) (given : List (List Char)) :
    Option (List Char) × List (List Char) :=
  match arity with
  | .optionalMotor low high => extractMotor motorCount low high given
  | _ => (none, given)

/-- Some commands have arguments in capitals. -/
def normalizeArgs (type : CommandType) (args : List (List Char)) : List (List Char) :=
  match type with
  | .check => if args = [] then [] else [joined args]
  | .setPhase => args.map upper
  | .setPid =>
    match args with
    | first :: rest => (if upper first = "ALL".toList then "ALL".toList else first) :: rest
    | [] => []
  | _ => args

/-- A line as a command, or why it is none. -/
def parseLine (motorCount : ℕ) (line : List Char) : Except String Command :=
  match tokens line with
  | [] => .error "empty command"
  | first :: rest =>
    match findCommand (first :: rest) with
    | none => .error ("unknown command: " ++ String.ofList (upper first))
    | some (type, count) =>
      let (motor, args) := type.arity.extract motorCount ((first :: rest).drop count)
      if type.arity.admits args.length then .ok ⟨type, normalizeArgs type args, motor⟩
      else .error ("invalid argument count for " ++ type.toText)

end Coatheal.CommandLine
