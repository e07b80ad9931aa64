import Coatheal.Link.Holds

/-!
# The exchange of one telemetry frame

Once a frame is admitted its segments go out, the ground station's kernel
acknowledges them on its own or in the ACK line, and our kernel acknowledges that
line, or resets the connection and answers whatever still comes with resets. The
link keeps the order of segments and nothing is retransmitted. Every segment that
either side puts on the wire is recorded, and the charge of the frame is followed
through the calls that `SendFrame` makes on its ticket.
-/

namespace Coatheal.Link

open Library Wire

/-- What goes over the wire for a frame: its segments, a TCP ACK of the ground station without data, our reset of a
late one, the ACK line, our ACK or reset of that line, and our reset of the exchange. -/
inductive SegmentKind where
  | frame
  | tcpAck
  | lateReset
  | ackLine
  | lineReply
  | exchangeReset
deriving DecidableEq, Repr

/-- Bytes on the wire at a time. -/
structure Emission where
  kind : SegmentKind
  time : ℤ
  bytes : ℕ
deriving DecidableEq, Repr

/-- How far `SendFrame` is: it writes, waits for the ACK line since the frame was written, found the link changed, or
ended the exchange with an answer or a reset and has its charge stop at some time. -/
inductive ExchangePhase where
  | writing
  | waiting (sentAt : ℤ)
  | unsent (stop : ℤ)
  | answered (sentAt stop : ℤ)
  | aborted (sentAt : Option ℤ) (stop : ℤ)
deriving DecidableEq, Repr

/-- The exchange of a frame: the segments of it that were sent, that arrived, and that the ground station and our
kernel know to be acknowledged; the TCP ACKs on their way with what they acknowledge; the ACK line; the segment
counters of our socket; and the charge in a ledger of its own. Emissions and refunds are kept for the statements. -/
structure FrameExchange where
  line : List Char
  payload : ℕ
  now : ℤ
  phase : ExchangePhase
  sent : ℕ
  arrived : ℕ
  groundAcked : ℕ
  acked : ℕ
  inFlight : List ℕ
  lineSent : Bool
  lineInFlight : ℕ
  segmentsIn : ℕ
  dataSegmentsIn : ℕ
  ackOwed : Bool
  budget : LinkBudget
  emitted : List Emission
  refunded : List SegmentKind

/-- A step: time passes; our side writes segments, has written all, fails to, or finds the link changed; segments
arrive at the ground station, which acknowledges or answers them; a TCP ACK or part of the ACK line arrives here; our
kernel acknowledges the line; the line is read, and is the expected one or not; or the exchange is given up. With
`known` the kernel reports the state of the socket. -/
inductive ExchangeEvent where
  | wait (nanoseconds : ℕ)
  | transmit (count : ℕ)
  | sendDone
  | sendFails (known : Bool) (srtt : ℕ)
  | linkChanged
  | arrive (count : ℕ)
  | tcpAck
  | answer (size : ℕ)
  | deliverAck
  | deliverLine (count : ℕ)
  | ackLine
  | read (expected known : Bool) (srtt : ℕ)
  | giveUp (known : Bool) (srtt : ℕ)
deriving DecidableEq, Repr

/-- The onboard share of the link. -/
def onboardShareBytes : ℕ := 1600

/-- The window of the ledger, in nanoseconds. -/
def windowNanos : ℤ := 10 ^ 9

/-- The bytes of the first segments of a payload. -/
def frameBytes (payload count : ℕ) : ℕ := count * (tcpHeaders + frameOverhead) + min payload (count * mss)

/-- The calls on a ticket once its frame is written. -/
def writtenCalls (payload ticket : ℕ) (sentAt : ℤ) : List Call := [.releasePart ticket (tcpBytes payload) (some sentAt)]

/-- The calls on the ticket of a frame that was answered as expected. -/
def answeredCalls (ticket : ℕ) (ackedAt : ℤ) (carried : Bool) : List Call :=
  .refund ticket (2 * reset) :: (if carried then [.refund ticket pureAck] else []) ++
    [.releaseAt ticket (some (ackedAt + ackFlushTail))]

/-- The calls on the ticket of an exchange that is aborted. -/
def abortedCalls (ticket : ℕ) (settled : Bool) (stop : ℤ) : List Call :=
  (if settled then [.refund ticket reset] else []) ++ [.releaseAt ticket (some stop)]

/-- The calls on the ticket of a frame whose link changed while it waited. -/
def unsentCalls (cost ticket : ℕ) (now : ℤ) : List Call := [.refund ticket cost, .release now ticket]

namespace ExchangePhase

/-- When the frame was written, if it was. -/
def sentAt : ExchangePhase → Option ℤ
  | .writing | .unsent _ => none
  | .waiting sentAt | .answered sentAt _ => some sentAt
  | .aborted sentAt _ => sentAt

/-- When the rest of the charge stops, once that is known. -/
def stop : ExchangePhase → Option ℤ
  | .writing | .waiting _ => none
  | .unsent stop | .answered _ stop | .aborted _ stop => some stop

/-- The connection is open. -/
def isOpen : ExchangePhase → Bool
  | .writing | .waiting _ => true
  | _ => false

/-- Segments of the exchange can still come through: the connection is open, or was reset a short time ago. -/
def live (now : ℤ) : ExchangePhase → Bool
  | .writing | .waiting _ => true
  | .aborted _ stop => decide (now ≤ stop)
  | .unsent _ | .answered _ _ => false

/-- Our kernel can still acknowledge the line. -/
def acknowledges (now : ℤ) : ExchangePhase → Bool
  | .writing | .waiting _ => true
  | .answered _ stop => decide (now ≤ stop)
  | .unsent _ | .aborted _ _ => false

end ExchangePhase

namespace FrameExchange

/-- The ticket of the frame, the first one of its ledger. -/
def ticket : ℕ := 1

/-- The frame is admitted: its cost is held. -/
def start (line : List Char) (payload : ℕ) : FrameExchange where
  line := line
  payload := payload
  now := 0
  phase := .writing
  sent := 0
  arrived := 0
  groundAcked := 0
  acked := 0
  inFlight := []
  lineSent := false
  lineInFlight := 0
  segmentsIn := 0
  dataSegmentsIn := 0
  ackOwed := false
  budget :=
    { LinkBudget.new onboardShareBytes windowNanos (by decide) with
      ledger := Ledger.empty.push none (frameCostBytes line payload) }
  emitted := []
  refunded := []

variable (s : FrameExchange)

/-- The segments of the frame. -/
def segments : ℕ := tcpSegmentCount s.payload

/-- Put bytes on the wire. -/
def emit (kind : SegmentKind) (bytes : ℕ) : FrameExchange :=
  { s with emitted := ⟨kind, s.now, bytes⟩ :: s.emitted }

/-- Call the budget. -/
def charge (calls : List Call) : FrameExchange := { s with budget := calls.foldl Call.apply s.budget }

/-- `abort_exchange`: the reset for a late TCP ACK is refunded if nothing is unacknowledged. -/
def abort (known : Bool) (srtt : ℕ) : FrameExchange :=
  let settled := known && decide (s.acked = s.sent)
  let stop := s.now + abortTail + srtt
  { (s.emit .exchangeReset reset).charge (abortedCalls ticket settled stop) with
    phase := .aborted s.phase.sentAt stop
    ackOwed := false
    refunded := if settled then .lateReset :: s.refunded else s.refunded }

/-- The expected answer was read: both resets are refunded, and the TCP ACK if one segment came in and had data. -/
def settle (known : Bool) (sentAt : ℤ) : FrameExchange :=
  let carried := known && decide (s.segmentsIn = 1 ∧ s.dataSegmentsIn = 1)
  { s.charge (answeredCalls ticket s.now carried) with
    phase := .answered sentAt (s.now + ackFlushTail)
    refunded := (if carried then [.tcpAck] else []) ++ .lateReset :: .exchangeReset :: s.refunded }

/-- A TCP ACK arrives. A reset connection answers it with a reset. -/
def deliverAck : FrameExchange :=
  match s.inFlight with
  | [] => s
  | number :: rest =>
    if s.phase.isOpen then { s with inFlight := rest, acked := number, segmentsIn := s.segmentsIn + 1 }
    else if s.phase.live s.now then { s.emit .lateReset reset with inFlight := rest }
    else s

/-- Segments of the ACK line arrive, after every TCP ACK before it. A reset connection answers each with a reset. -/
def deliverLine (count : ℕ) : FrameExchange :=
  if s.inFlight = [] ∧ 0 < count ∧ count ≤ s.lineInFlight then
    if s.phase.isOpen then
      { s with
        lineInFlight := s.lineInFlight - count
        acked := s.segments
        segmentsIn := s.segmentsIn + count
        dataSegmentsIn := s.dataSegmentsIn + count
        ackOwed := true }
    else if s.phase.live s.now then
      { s.emit .lineReply (count * reset) with lineInFlight := s.lineInFlight - count }
    else s
  else s

/-- The line is read once all of it arrived. -/
def read (expected known : Bool) (srtt : ℕ) : FrameExchange :=
  match s.phase with
  | .waiting sentAt =>
    if s.lineSent = true ∧ s.lineInFlight = 0 then
      if expected then s.settle known sentAt else s.abort known srtt
    else s
  | _ => s

/-- One step of the exchange. -/
def step : ExchangeEvent → FrameExchange
  | .wait nanoseconds => { s with now := s.now + nanoseconds }
  | .transmit count =>
    if s.phase = .writing ∧ 0 < count ∧ s.sent + count ≤ s.segments then
      { s.emit .frame (frameBytes s.payload (s.sent + count) - frameBytes s.payload s.sent) with
        sent := s.sent + count }
    else s
  | .sendDone =>
    if s.phase = .writing ∧ s.sent = s.segments then
      { s.charge (writtenCalls s.payload ticket s.now) with phase := .waiting s.now }
    else s
  | .sendFails known srtt => if s.phase = .writing then s.abort known srtt else s
  | .linkChanged =>
    if s.phase = .writing ∧ s.sent = 0 then
      { s.charge (unsentCalls (frameCostBytes s.line s.payload) ticket s.now) with
        phase := .unsent s.now
        refunded := [.frame, .tcpAck, .lateReset, .ackLine, .lineReply, .exchangeReset] }
    else s
  | .arrive count =>
    if s.phase.live s.now ∧ s.arrived + count ≤ s.sent then { s with arrived := s.arrived + count } else s
  | .tcpAck =>
    if s.phase.live s.now ∧ s.groundAcked < s.arrived then
      { s.emit .tcpAck pureAck with inFlight := s.inFlight ++ [s.arrived], groundAcked := s.arrived }
    else s
  | .answer size =>
    if s.phase.live s.now ∧ s.arrived = s.segments ∧ s.lineSent = false ∧ size ≤ ackLinePayload s.line then
      { s.emit .ackLine (tcpBytes size) with
        lineSent := true
        lineInFlight := tcpSegmentCount size
        groundAcked := s.segments }
    else s
  | .deliverAck => s.deliverAck
  | .deliverLine count => s.deliverLine count
  | .ackLine =>
    if s.ackOwed = true ∧ s.phase.acknowledges s.now = true then { s.emit .lineReply pureAck with ackOwed := false }
    else s
  | .read expected known srtt => s.read expected known srtt
  | .giveUp known srtt =>
    match s.phase with
    | .waiting _ => s.abort known srtt
    | _ => s

/-- The bytes that the charge counts now. -/
def counted : ℕ := (s.budget.ledger.prune s.budget.window s.now).total

end FrameExchange

namespace ChargedClient

variable {c : ChargedClient} {now : ℤ} {srtt : ℕ} {rest : List Moment}

/-- With nobody else at the budget, the end of an answered exchange makes the calls of `answeredCalls`. -/
theorem settleAnswered_budget (ticket : ℕ) (carried : Bool) (hhold : c.connectHoldOpen = false)
    (hahead : c.ahead = List.replicate 4 ⟨[], now, srtt⟩ ++ rest) :
    (c.settleAnswered ticket carried).budget = (answeredCalls ticket now carried).foldl Call.apply c.budget := by
  cases carried <;>
    simp [settleAnswered, answeredCalls, charge, attended, reading, releaseConnectHoldLocked, hahead, hhold,
      List.replicate]

/-- With nobody else at the budget, an abort makes the calls of `abortedCalls`, and one that is no hold. -/
theorem abortExchange_ledger (ticket : ℕ) (settled : Bool) (hhold : c.connectHoldOpen = false)
    (hahead : c.ahead = List.replicate 4 ⟨[], now, srtt⟩ ++ rest) :
    (c.abortExchange ticket settled).budget.ledger =
      ((abortedCalls ticket settled (now + abortTail + srtt)).foldl Call.apply c.budget).ledger := by
  by_cases hconnection : c.connection.isSome
  all_goals
    cases settled <;>
      simp [abortExchange, abortedCalls, abortLocked, closeLocked, abortTailLocked, charge, attended, reading,
        hahead, hhold, hconnection, List.replicate] <;> rfl

/-- The calls that the exchange of a frame makes for an outcome of it. -/
def exchangeCalls (f : PendingFrame) (ticket : ℕ) (now : ℤ) (srtt : ℕ) : Exchange → List Call
  | .writeFails settled => abortedCalls ticket settled (now + abortTail + srtt)
  | .unanswered settled | .wrongAnswer settled =>
    writtenCalls f.payload ticket now ++ abortedCalls ticket settled (now + abortTail + srtt)
  | .answered carried => writtenCalls f.payload ticket now ++ answeredCalls ticket now carried

/-- With nobody else at the budget, `SendFrame` makes these calls for an admitted frame. -/
theorem exchangeFrame_ledger (f : PendingFrame) (ticket : ℕ) (exchange : Exchange) (hhold : c.connectHoldOpen = false)
    (hahead : c.ahead = List.replicate 5 ⟨[], now, srtt⟩ ++ rest) :
    (c.exchangeFrame f ticket exchange).1.budget.ledger =
      ((exchangeCalls f ticket now srtt exchange).foldl Call.apply c.budget).ledger := by
  have hwritten : (c.charge (.releasePart ticket (tcpBytes f.payload) (some c.reading.now))).budget =
      (writtenCalls f.payload ticket now).foldl Call.apply c.budget := by
    simp [charge, attended, reading, writtenCalls, hahead, List.replicate]
  have hrest : (c.charge (.releasePart ticket (tcpBytes f.payload) (some c.reading.now))).ahead =
      List.replicate 4 ⟨[], now, srtt⟩ ++ rest := by
    simp [charge, hahead, List.replicate]
  cases exchange with
  | writeFails settled =>
    have hmore : c.ahead = List.replicate 4 ⟨[], now, srtt⟩ ++ ⟨[], now, srtt⟩ :: rest := by
      simp [hahead, List.replicate]
    exact abortExchange_ledger ticket settled hhold hmore
  | unanswered settled | wrongAnswer settled =>
    rw [exchangeCalls, List.foldl_append, ← hwritten]
    exact abortExchange_ledger ticket settled hhold hrest
  | answered carried =>
    rw [exchangeCalls, List.foldl_append, ← hwritten]
    exact congrArg LinkBudget.ledger (settleAnswered_budget ticket carried hhold hrest)

/-- With nobody else at the budget, a frame whose link changed is refunded and its charge released. -/
theorem finishFrame_ledger (f : PendingFrame) (ticket : ℕ) (exchange : Exchange) (hchanged : c.linkChanged f = true)
    (hahead : c.ahead = List.replicate 4 ⟨[], now, srtt⟩ ++ rest) :
    (c.finishFrame f ticket exchange).1.budget.ledger =
      ((unsentCalls f.cost ticket now).foldl Call.apply c.budget).ledger := by
  rw [finishFrame, if_pos (Or.inl hchanged)]
  simp [charge, attended, reading, unsentCalls, hahead, List.replicate]
  rfl

end ChargedClient

end Coatheal.Link
