import Coatheal.Link.OpenHolds
import Coatheal.Link.Silence
import Coatheal.Link.Targeting
import Coatheal.Link.Wire

/-!
# The holds of the telemetry client

The client places a hold for every connection attempt and one for every frame.
Here are its locked sections with each call of the budget in them, the calls that
other users of the budget make in between, and frames that wait for room while
others go on. The tickets it was handed out are kept for the statements.
-/

namespace Coatheal.Link

open Library Wire

/-- What a call of the client's meets: what other users of the budget called before it, what the clock reads, and
the round trip that the kernel reports. -/
structure Moment where
  others : List Call
  now : ℤ
  srtt : ℕ
deriving DecidableEq, Repr

/-- A connection: its socket, whether its ground station took the codec, and the ticket it was made under. -/
structure Connection where
  fd : ℕ
  z1 : Bool
  hold : ℕ
deriving DecidableEq, Repr

/-- The HELLO was answered: the ground station takes the codec, or not. -/
def Connection.withCodec (z1 : Bool) (connection : Connection) : Connection := { connection with z1 := z1 }

/-- What becomes of the HELLO: there is no codec to offer, it is not acknowledged, it stays unanswered, or the answer
takes the codec or not. -/
inductive Hello where
  | noCodec
  | lost
  | unanswered
  | answered (z1 : Bool)
deriving DecidableEq, Repr

/-- How far a connection attempt comes. -/
inductive Dial where
  | unresolved
  | refused
  | connected (fd : ℕ) (hello : Hello)
deriving DecidableEq, Repr

/-- What becomes of a frame that is written: the write fails, no line comes in time, another one than expected, or
the expected one. The kernel has nothing unacknowledged if the exchange is `settled`; the answer is the one segment
that came in if it `carried` the TCP ACK. -/
inductive Exchange where
  | writeFails (settled : Bool)
  | unanswered (settled : Bool)
  | wrongAnswer (settled : Bool)
  | answered (carried : Bool)
deriving DecidableEq, Repr

/-- A frame on its way through `SendFrame`, from the wait for room to the end of its exchange. It waits until it has
a ticket. -/
structure PendingFrame where
  line : List Char
  payload : ℕ
  priority : LinkPriority
  deadline : ℤ
  fd : ℕ
  z1 : Bool
  ticket : Option ℕ
deriving DecidableEq, Repr

/-- What the frame is charged with. -/
def PendingFrame.cost (f : PendingFrame) : ℕ := frameCostBytes f.line f.payload

/-- What our side sends for the frame. -/
def PendingFrame.egress (f : PendingFrame) : ℕ := frameEgressBytes f.payload

/-- The telemetry client with the budget it charges. What its next calls of the budget meet stands ahead. It was
handed out the tickets `opened`, those `dialed` for connection attempts, and those `returned` for frames whose
`SendFrame` returned. -/
structure ChargedClient where
  link : TelemetryClient
  sessionId : List Char
  connection : Option Connection
  connectHold : ℕ
  connectHoldOpen : Bool
  budget : LinkBudget
  ahead : List Moment
  frames : List PendingFrame
  opened : List ℕ
  dialed : List ℕ
  returned : List ℕ

/-- A step: another user calls the budget, time passes, a datagram or a command peer is heard, the transmitter is
switched, a frame is sent, a waiting frame tries again, an admitted one has its exchange, or the client is closed. -/
inductive ClientEvent where
  | others (call : Call)
  | wait (nanoseconds : ℕ)
  | datagram (line senderIp : List Char)
  | observe (host : List Char) (telemetryPort commandPort priority : ℤ)
  | setTransmitEnabled (enabled : Bool)
  | sendFrame (line packed : List Char) (priority : LinkPriority) (deadline : ℤ) (dial : Dial)
  | wake (index : ℕ)
  | finish (index : ℕ) (exchange : Exchange)
  | close
deriving DecidableEq, Repr

/-- A call by somebody who does not have the owner's tickets. -/
def outsideCall (owned : List ℕ) (budget : LinkBudget) (call : Call) : LinkBudget :=
  if call.ticket.any owned.contains then budget else call.apply budget

namespace ChargedClient

/-- A client that is not connected, with a budget that others may have used already. -/
def start (config : TargetConfig) (sessionId : List Char) (budget : LinkBudget) (ahead : List Moment) :
    ChargedClient where
  link := .new config
  sessionId := sessionId
  connection := none
  connectHold := 0
  connectHoldOpen := false
  budget := budget
  ahead := ahead
  frames := []
  opened := []
  dialed := []
  returned := []

variable (c : ChargedClient)

/-- What the next call of the budget meets. -/
def reading : Moment := c.ahead.headD ⟨[], c.link.now, 0⟩

/-- The budget as the next call finds it. -/
def attended : LinkBudget := c.reading.others.foldl (outsideCall c.opened) c.budget

/-- A call of the budget that hands out no ticket. -/
def charge (call : Call) : ChargedClient :=
  { c with ahead := c.ahead.tail, budget := call.apply c.attended }

/-- `TryHold`. -/
def tryHold (bytes : ℕ) (priority : LinkPriority) (egress : ℕ) : Option ℕ × ChargedClient :=
  let (ticket, budget) := c.attended.tryHold c.reading.now bytes priority egress
  (ticket, { c with ahead := c.ahead.tail, budget := budget, opened := ticket.toList ++ c.opened })

/-- The ticket a wait ends with. -/
def admittedTicket : LinkBudget.WaitOutcome → Option ℕ
  | .admitted ticket => some ticket
  | _ => none

/-- Where the wait of a frame leaves it: in flight with a ticket, returned without one, or waiting on. -/
def settleWait (f : PendingFrame) (outcome : LinkBudget.WaitOutcome) (budget : LinkBudget) :
    ChargedClient × Option SendStatus :=
  let c := { c with
    ahead := c.ahead.tail, budget := budget, opened := (admittedTicket outcome).toList ++ c.opened }
  match outcome with
  | .admitted ticket => ({ c with frames := c.frames ++ [{ f with ticket := some ticket }] }, none)
  | .refused => (c, some .noBudget)
  | .waiting => ({ c with frames := c.frames ++ [f] }, none)

/-- `WaitHold` for a frame, up to its first wait. -/
def waitHold (f : PendingFrame) : ChargedClient × Option SendStatus :=
  let (outcome, budget) := c.attended.waitHold c.reading.now f.cost f.priority f.deadline f.egress
  c.settleWait f outcome budget

/-- Another pass of `WaitHold` for a frame. -/
def waitHoldPass (f : PendingFrame) : ChargedClient × Option SendStatus :=
  let (outcome, budget) := c.attended.waitHoldPass c.reading.now f.cost f.priority f.deadline f.egress
  c.settleWait f outcome budget

/-- `ReleaseConnectHoldLocked`. -/
def releaseConnectHoldLocked (stop : ℤ) : ChargedClient :=
  if c.connectHoldOpen then { c.charge (.releaseAt c.connectHold (some stop)) with connectHoldOpen := false } else c

/-- `AbortTailLocked`. -/
def abortTailLocked : ℤ := c.reading.now + abortTail + c.reading.srtt

/-- `CloseLocked`. -/
def closeLocked : ChargedClient :=
  let c := if c.connectHoldOpen then c.releaseConnectHoldLocked c.abortTailLocked else c
  { c with connection := none, link := c.link.abort }

/-- `AbortLocked`. -/
def abortLocked : ChargedClient :=
  let c := if c.connection.isSome then c.charge (.debitEgress c.reading.now reset) else c
  c.closeLocked

/-- An attempt ends before anything is sent. -/
def giveUpUnsent : ChargedClient :=
  let c := c.releaseConnectHoldLocked c.reading.now
  c.charge (.refundEgress c.reading.now (connectEgressBytes c.sessionId))

/-- `NegotiateCodecLocked`. -/
def negotiateCodecLocked : Hello → ChargedClient
  | .noCodec => c.releaseConnectHoldLocked (c.reading.now + emissionTail)
  | .lost => c.abortLocked
  | .unanswered =>
    if c.connectHoldOpen then
      c.charge (.releasePart c.connectHold (connectCostBytes c.sessionId - lateHelloAnswer)
        (some (c.reading.now + emissionTail)))
    else c
  | .answered z1 =>
    let c := { c with connection := c.connection.map (Connection.withCodec z1) }
    c.releaseConnectHoldLocked (c.reading.now + ackFlushTail)

/-- `ConnectLocked`. -/
def connectLocked (dial : Dial) : ChargedClient :=
  match c.link.pickTargetHost, dial with
  | none, _ | some _, .unresolved => { c with link := c.link.connect .unreachable }.giveUpUnsent
  | some _, .refused =>
    let c := { c with link := c.link.connect .unreachable }
    let c := c.releaseConnectHoldLocked (c.reading.now + abortTail)
    c.charge (.refundEgress c.reading.now (connectEgressBytes c.sessionId - syn - pureAck))
  | some _, .connected fd hello =>
    let c := { c with link := c.link.connect .connected, connection := some ⟨fd, false, c.connectHold⟩ }
    c.negotiateCodecLocked hello

/-- A failover that was asked for resets the connection. -/
def honorFailover : ChargedClient :=
  let due := c.link.failoverRequested && c.connection.isSome
  let c := { c with link := { c.link with failoverRequested := false } }
  if due then c.abortLocked else c

/-- Without a connection one is attempted; the status with which `SendFrame` returns if there is none after that. -/
def reconnect (priority : LinkPriority) (dial : Dial) : ChargedClient × Option SendStatus :=
  if c.connection.isSome then (c, none)
  else
    let started := c.link.now
    if started < c.link.nextConnectAttempt then (c, some .notConnected)
    else
      let c := c.releaseConnectHoldLocked (c.reading.now + abortTail)
      match c.tryHold (connectCostBytes c.sessionId) priority (connectEgressBytes c.sessionId) with
      | (none, c) => (c, some .noBudget)
      | (some ticket, c) =>
        let c := { c with connectHold := ticket, connectHoldOpen := true, dialed := ticket :: c.dialed }
        let c := c.connectLocked dial
        if c.connection.isSome then
          ({ c with link := { c.link with connectBackoffMs := 500, nextConnectAttempt := 0 } }, none)
        else ({ c with link := c.link.backOff started }, some .notConnected)

/-- What is sent for a line: its compressed form if the ground station took the codec and there is one, and the
line itself otherwise, with a newline. -/
def payloadOf (line packed : List Char) (z1 : Bool) : ℕ :=
  (if z1 ∧ packed ≠ [] then packed else line).length + 1

/-- A frame asks for its room. One that can never fit resets the connection. -/
def requestRoom (line packed : List Char) (priority : LinkPriority) (deadline : ℤ) (connection : Connection) :
    ChargedClient × Option SendStatus :=
  let payload := payloadOf line packed connection.z1
  if frameCostBytes line payload > c.budget.share then
    let c := c.charge (.tryCharge c.reading.now reset priority 0)
    let c := c.abortLocked
    ({ c with link := { c.link with nextConnectAttempt := c.link.now + oversizeRetry } }, some .failed)
  else c.waitHold ⟨line, payload, priority, deadline, connection.fd, connection.z1, none⟩

/-- `SendFrame` up to the wait for room; the status if it returns before. -/
def beginFrame (line packed : List Char) (priority : LinkPriority) (deadline : ℤ) (dial : Dial) :
    ChargedClient × Option SendStatus :=
  if c.link.transmitEnabled = false then
    (if c.connection.isSome then c.abortLocked else c, some .silent)
  else
    match c.honorFailover.reconnect priority dial with
    | (c, some status) => (c, some status)
    | (c, none) =>
      match c.connection with
      | none => (c, some .notConnected)
      | some connection => c.requestRoom line packed priority deadline connection

/-- `abort_exchange`: the end of an exchange that failed. -/
def abortExchange (ticket : ℕ) (settled : Bool) : ChargedClient :=
  let c := if settled then c.charge (.refund ticket reset) else c
  let releaseAt := c.abortTailLocked
  let c := c.abortLocked
  c.charge (.releaseAt ticket (some releaseAt))

/-- The end of an exchange that was answered as expected. -/
def settleAnswered (ticket : ℕ) (carried : Bool) : ChargedClient :=
  let ackedAt := c.reading.now
  let c := c.charge (.refund ticket (2 * reset))
  let c := if carried then c.charge (.refund ticket pureAck) else c
  let c := c.charge (.releaseAt ticket (some (ackedAt + ackFlushTail)))
  c.releaseConnectHoldLocked (ackedAt + ackFlushTail)

/-- The exchange of an admitted frame. What is written is released at once. -/
def exchangeFrame (f : PendingFrame) (ticket : ℕ) : Exchange → ChargedClient × SendStatus
  | .writeFails settled => (c.abortExchange ticket settled, .failed)
  | .unanswered settled | .wrongAnswer settled =>
    ((c.charge (.releasePart ticket (tcpBytes f.payload) (some c.reading.now))).abortExchange ticket settled, .failed)
  | .answered carried =>
    ((c.charge (.releasePart ticket (tcpBytes f.payload) (some c.reading.now))).settleAnswered ticket carried, .sent)

/-- The connection is not the one that the frame waited for. -/
def linkChanged (f : PendingFrame) : Bool :=
  c.connection.all fun connection => connection.fd ≠ f.fd ∨ connection.z1 ≠ f.z1

/-- `SendFrame` from its admission on. -/
def finishFrame (f : PendingFrame) (ticket : ℕ) (exchange : Exchange) : ChargedClient × SendStatus :=
  if c.linkChanged f ∨ c.link.transmitEnabled = false then
    let c := c.charge (.refund ticket f.cost)
    let c := c.charge (.refundEgress c.reading.now f.egress)
    let c := c.charge (.release c.reading.now ticket)
    (c, if c.link.transmitEnabled then .notConnected else .silent)
  else c.exchangeFrame f ticket exchange

/-- The choice of the ground station goes on; where that drops the connection, the socket is reset. -/
def follow (link : TelemetryClient) : ChargedClient :=
  if c.connection.isSome ∧ link.connected = false then { c.abortLocked with link := link } else { c with link := link }

/-- One step of the client. -/
def step : ClientEvent → ChargedClient
  | .others call => { c with budget := outsideCall c.opened c.budget call }
  | .wait nanoseconds => c.follow (c.link.step (.wait nanoseconds))
  | .datagram line senderIp => c.follow (c.link.hearDatagram line senderIp)
  | .observe host telemetryPort commandPort priority =>
    c.follow (c.link.observeGroundStation host telemetryPort commandPort priority)
  | .setTransmitEnabled enabled =>
    let c := { c with link := { c.link with transmitEnabled := enabled } }
    if enabled then c else c.abortLocked
  | .sendFrame line packed priority deadline dial => (c.beginFrame line packed priority deadline dial).1
  | .wake index =>
    match c.frames[index]? with
    | some f =>
      if f.ticket.isNone then ({ c with frames := c.frames.eraseIdx index }.waitHoldPass f).1 else c
    | none => c
  | .finish index exchange =>
    match c.frames[index]? with
    | some f =>
      match f.ticket with
      | some ticket =>
        let c := (c.finishFrame f ticket exchange).1
        { c with frames := c.frames.eraseIdx index, returned := ticket :: c.returned }
      | none => c
    | none => c
  | .close => c.closeLocked

/-- No hold leaks: a frame whose `SendFrame` returned is not open, the hold of a connection is open only while that
connection is there, and any other ticket that is open is the one of a frame on its way. -/
structure NoLeak : Prop where
  returned : ∀ ticket ∈ c.returned, ¬c.budget.ledger.IsOpen ticket
  dialed : ∀ ticket ∈ c.dialed, c.budget.ledger.IsOpen ticket → ∃ connection ∈ c.connection, connection.hold = ticket
  accounted : ∀ ticket ∈ c.opened, c.budget.ledger.IsOpen ticket →
    (∃ connection ∈ c.connection, connection.hold = ticket) ∨ ∃ f ∈ c.frames, f.ticket = some ticket

end ChargedClient

end Coatheal.Link
