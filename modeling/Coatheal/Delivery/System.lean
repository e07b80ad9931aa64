import Coatheal.Queue.Consistency
import Coatheal.Library.Text
import Mathlib.Logic.Function.Basic

/-!
# The path of a frame to the ground station

The onboard queue with its drain and client, the connections, and the receiver
of the ground station as one system. A step is what one party does while the
others stand still: a frame goes out, an answer comes in, the receiver takes a
line, answers it, or writes its row. A connection can lose what is on it at any
time. What the receiver's parsers make of the columns of a line is a parameter.
A frame's text is one line, and an answer is the pair of its two fields.
-/

namespace Coatheal.Delivery

open Coatheal.Library Coatheal.Library.Text Coatheal.Queue

/-- A session and a sequence number. -/
abbrev Key := List Char × ℕ

/-- The two parsers of the receiver: a telemetry line gives its session and number, an event line
its session, and nothing comes of a line that they refuse. -/
structure Wire where
  parseTelemetryCsv : List Char → Option Key
  parseEvent : List Char → Option (List Char)

/-- A line that begins like a telemetry frame. -/
def isDataLine (line : List Char) : Bool := "DATA,".toList.isPrefixOf line

/-- `TagFrameForTransmit`: a telemetry frame carries its age when it is sent. -/
def tagFrameForTransmit (frame : List Char) (queuedEpochS now : ℤ) : List Char :=
  if isDataLine frame then
    frame ++ ",TX=".toList ++ showInt (if now > queuedEpochS then now - queuedEpochS else 0)
  else frame

/-- The first fields of the answer that a conforming ground station gives, nothing for a line of
unknown shape. -/
def expectedAckLine (line : List Char) : Option (List Char × List Char) :=
  match getlines ',' line with
  | kind :: first :: second :: _ =>
    if kind = "DATA".toList then some (first, second)
    else if kind = "EVT".toList then some (second, ['0'])
    else none
  | _ => none

/-- `ack_for_raw_line`: the answer to a line that could not be parsed. -/
def ackForRawLine (line : List Char) : Option Key :=
  match (getlines ',' (trim isSpace line)).map (trim isSpace) with
  | kind :: first :: second :: _ =>
    if kind = "DATA".toList ∧ first ≠ [] ∧ (wholeNat second).isSome then
      (wholeNat second).map fun seq => (first, seq)
    else if kind = "EVT".toList ∧ second ≠ [] then some (second, 0)
    else none
  | _ => none

/-- What the receiver makes of a line. -/
inductive Reading where
  | event (sessionId : List Char)
  | telemetry (key : Key)
  | unparseable (ack : Option Key)
deriving DecidableEq, Repr

/-- Events and telemetry frames go to their own parsers. -/
def Wire.reading (wire : Wire) (line : List Char) : Reading :=
  let line := trim isSpace line
  if "EVT,".toList.isPrefixOf line then
    match wire.parseEvent line with
    | some sessionId => .event sessionId
    | none => .unparseable (ackForRawLine line)
  else
    match wire.parseTelemetryCsv line with
    | some key => .telemetry key
    | none => .unparseable (ackForRawLine line)

/-- An answer under way, with the line that it answers. -/
structure Answer where
  line : List Char
  ack : Key
deriving DecidableEq, Repr

/-- What is under way on a connection. -/
structure Connection where
  uplink : List (List Char)
  downlink : List Answer
deriving DecidableEq, Repr

/-- A line is put on its way. -/
def Connection.carry (connection : Connection) (line : List Char) : Connection :=
  { connection with uplink := connection.uplink ++ [line] }

/-- An answer is put on its way. -/
def Connection.reply (connection : Connection) (answer : Answer) : Connection :=
  { connection with downlink := connection.downlink ++ [answer] }

/-- The onboard side: the queue, the connection it has, and the frame it waits to see answered with
the line it sent. -/
structure Onboard where
  queue : TelemetryQueue
  link : Option ℕ
  exchange : Option (QueuedTelemetryFrame × List Char)

/-- A telemetry line in the hands of the receiver: marked as received, not yet answered or answered,
its row not yet written. -/
structure Handling where
  line : List Char
  key : Key
  fresh : Bool
  answered : Bool
deriving DecidableEq, Repr

/-- The receiver: the connection it serves, the next one it accepts, the numbers it has received, the
cursor on its disk and the rows of the telemetry files. -/
structure Ground where
  current : Option ℕ
  nextAccept : ℕ
  handling : Option Handling
  received : List Key
  cursor : List Key
  rows : List Key

/-- The whole system, with the frames that acknowledgements took out of the queue. -/
structure World where
  onboard : Onboard
  ground : Ground
  connections : ℕ → Connection
  nextLink : ℕ
  left : List QueuedTelemetryFrame

/-- Which pending frame the drain sends: the live one, a pending event, or the next replay. -/
inductive Choice where
  | live (index : ℕ)
  | event (maxFrames position : ℕ)
  | replay
deriving DecidableEq, Repr

/-- The frame of a choice. -/
def Choice.frame (backlog : Backlog) : Choice → Option QueuedTelemetryFrame
  | .live index => backlog.frameAt index
  | .event maxFrames position =>
    match backlog.pendingEvents maxFrames with
    | .ok frames => frames[position]?
    | .error _ => none
  | .replay =>
    match backlog.nextReplay with
    | .ok found => found
    | .error _ => none

/-- One step of one party, or a loss. -/
inductive Event where
  | restart (now : ℤ) (io : InitializeIo)
  | enqueue (now steady : ℤ) (frame : QueuedTelemetryFrame) (io : OperationIo)
  | connect
  | send (choice : Choice) (now : ℤ)
  | receive (steady : ℤ) (io : OperationIo)
  | abort
  | lose (link : ℕ)
  | accept
  | close
  | read (answers : Bool)
  | answer (sends : Bool)
  | persist
  | writeRow (writes : Bool)
  | groundRestart (loads : Bool)
deriving DecidableEq, Repr

/-- The number an acknowledgement of a frame carries: zero for an event frame. -/
def expectedSeq (frame : QueuedTelemetryFrame) : ℕ := if frame.isEventFrame then 0 else frame.seq.toNat

/-- The answer to a line is accepted as the acknowledgement of a frame. -/
def accepts (frame : QueuedTelemetryFrame) (line : List Char) (ack : Key) : Bool :=
  (expectedAckLine line).all (fun expected => expected = (ack.1, showNat ack.2)) &&
    decide (ack = (frame.sessionId, expectedSeq frame))

namespace World

/-- Everything at rest and nothing received, beside a queue file. -/
def new (config : QueueConfig) (file : Option (List Char)) : World :=
  ⟨⟨.new config file, none, none⟩, ⟨none, 0, none, [], [], []⟩, fun _ => Connection.mk [] [], 0, []⟩

/-- Change what is under way on one connection. -/
def onConnection (world : World) (link : ℕ) (change : Connection → Connection) : World :=
  { world with connections := Function.update world.connections link (change (world.connections link)) }

/-- The client gives up its connection. -/
def abortLink (world : World) : World :=
  { world with onboard := { world.onboard with link := none, exchange := none } }

/-- The receiver gives up its connection and what it has in hand. -/
def drop (world : World) : World :=
  { world with ground := { world.ground with current := none, handling := none } }

/-- `SendFrame`: send a frame that is pending over a connection that is free. -/
def send (world : World) (choice : Choice) (now : ℤ) : World :=
  match world.onboard.link, world.onboard.exchange, choice.frame world.onboard.queue.backlog with
  | some link, none, some frame =>
    let line := tagFrameForTransmit frame.frame frame.queuedEpochS.toInt now
    { world with onboard := { world.onboard with exchange := some (frame, line) } }.onConnection link
      (·.carry line)
  | _, _, _ => world

/-- The frames that an exact acknowledgement removes. -/
def removedBy (backlog : Backlog) (frame : QueuedTelemetryFrame) : List QueuedTelemetryFrame :=
  match backlog.exactPosition frame with
  | none => []
  | some index => (backlog.frames.find? index).toList

/-- `SendOne` after the answer: acknowledge the frame in the queue, or reset the connection when the
answer is not its own. -/
def receive (world : World) (steady : ℤ) (io : OperationIo) : World :=
  match world.onboard.link, world.onboard.exchange with
  | some link, some (frame, line) =>
    match (world.connections link).downlink with
    | [] => world
    | answer :: rest =>
      if accepts frame line answer.ack then
        { world with
          onboard :=
            { world.onboard with
              queue := world.onboard.queue.acknowledgeExact steady frame io, exchange := none }
          left := world.left ++ removedBy world.onboard.queue.backlog frame }.onConnection link
            fun connection => { connection with downlink := rest }
      else world.abortLink
  | _, _ => world

/-- Send an answer at once, or lose the connection over it. -/
def reply (world : World) (link : ℕ) (line : List Char) (ack : Key) (answers : Bool) : World :=
  if answers then world.onConnection link (·.reply ⟨line, ack⟩) else world.drop

/-- A telemetry line is in hand and its number is marked as received. -/
def marked (world : World) (line : List Char) (key : Key) : World :=
  { world with
    ground :=
      { world.ground with
        handling := some ⟨line, key, decide (key ∉ world.ground.received), false⟩
        received := if key ∈ world.ground.received then world.ground.received
          else key :: world.ground.received } }

/-- Take the next line of the connection. A telemetry frame is marked as received. -/
def read (wire : Wire) (world : World) (answers : Bool) : World :=
  match world.ground.current, world.ground.handling with
  | some link, none =>
    match (world.connections link).uplink with
    | [] => world
    | line :: rest =>
      let taken := world.onConnection link fun connection => { connection with uplink := rest }
      match wire.reading line with
      | .event sessionId => taken.reply link line (sessionId, 0) answers
      | .unparseable none => taken
      | .unparseable (some ack) => taken.reply link line ack answers
      | .telemetry key => taken.marked line key
  | _, _ => world

/-- Answer the frame in hand; when that fails the connection is given up. -/
def answer (world : World) (sends : Bool) : World :=
  match world.ground.current, world.ground.handling with
  | some link, some handling =>
    if handling.answered then world
    else if sends then
      { world with
        ground := { world.ground with handling := some { handling with answered := true } } }.onConnection link
          (·.reply ⟨handling.line, handling.key⟩)
    else world.drop
  | _, _ => world

/-- Write the row of the frame in hand, if it is the first of its number. -/
def writeRow (world : World) (writes : Bool) : World :=
  match world.ground.handling with
  | some handling =>
    if handling.answered then
      { world with
        ground :=
          { world.ground with
            handling := none
            rows := if handling.fresh && writes then handling.key :: world.ground.rows else world.ground.rows } }
    else world
  | none => world

/-- What a step leaves of the system. -/
def step (wire : Wire) (world : World) : Event → World
  | .restart now io =>
    { world with onboard := ⟨world.onboard.queue.step (.restart now io), none, none⟩ }
  | .enqueue now steady frame io =>
    { world with
      onboard := { world.onboard with queue := world.onboard.queue.step (.enqueue now steady frame io) } }
  | .connect =>
    match world.onboard.link with
    | none =>
      { world with onboard := { world.onboard with link := some world.nextLink }, nextLink := world.nextLink + 1 }
    | some _ => world
  | .send choice now => world.send choice now
  | .receive steady io => world.receive steady io
  | .abort => world.abortLink
  | .lose link => world.onConnection link fun _ => Connection.mk [] []
  | .accept =>
    if world.ground.current = none ∧ world.ground.nextAccept < world.nextLink then
      { world with
        ground :=
          { world.ground with
            current := some world.ground.nextAccept, nextAccept := world.ground.nextAccept + 1 } }
    else world
  | .close => if world.ground.handling = none then world.drop else world
  | .read answers => world.read wire answers
  | .answer sends => world.answer sends
  | .persist => { world with ground := { world.ground with cursor := world.ground.received } }
  | .writeRow writes => world.writeRow writes
  | .groundRestart loads =>
    { world with
      ground :=
        { world.ground with
          current := none, handling := none, received := if loads then world.ground.cursor else [] } }

end World

end Coatheal.Delivery
