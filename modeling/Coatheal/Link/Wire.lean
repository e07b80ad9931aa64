import Coatheal.Ground.Acknowledgement

/-!
# What the telemetry costs on the wire

Every segment counts its headers and the frame around it. A telemetry frame is
charged with all that its exchange can put on the wire, a connection attempt
with all that its handshake and its HELLO can. Texts are one character a byte,
sizes are exact numbers.
-/

namespace Coatheal.Link

open Ground

namespace Wire

/-- Preamble, check sequence and the gap between frames. -/
def frameOverhead : ℕ := 24

/-- Ethernet, IPv4 and TCP with timestamps. -/
def tcpHeaders : ℕ := 66

/-- The smallest Ethernet frame. -/
def minFrame : ℕ := 60

/-- The largest packet of the capped port. -/
def linkMtu : ℕ := 576

/-- The payload that fits one segment. -/
def mss : ℕ := linkMtu - 52

/-- An ACK without data. -/
def pureAck : ℕ := tcpHeaders + frameOverhead

/-- A SYN or a SYN-ACK. -/
def syn : ℕ := 74 + frameOverhead

/-- A reset. -/
def reset : ℕ := minFrame + frameOverhead

/-- How many segments carry a payload. -/
def tcpSegmentCount (payload : ℕ) : ℕ := if payload = 0 then 1 else (payload + mss - 1) / mss

/-- Every segment needed to carry a payload, headers included. -/
def tcpBytes (payload : ℕ) : ℕ := tcpSegmentCount payload * (tcpHeaders + frameOverhead) + payload

/-- Answers on their way when a connection is reset can arrive for this long, in nanoseconds. -/
def abortTail : ℤ := 500 * 10 ^ 6

end Wire

open Wire

/-- A delayed ACK of ours can still leave this long after a charge's last byte, in nanoseconds. -/
def emissionTail : ℤ := 50 * 10 ^ 6

/-- The same once the kernel was told to acknowledge at once. -/
def ackFlushTail : ℤ := 10 * 10 ^ 6

/-- The longest answer to the HELLO that is charged. -/
def helloReplyMaxBytes : ℕ := 16

/-- A ground station that cannot carry a frame at all is left alone this long, in nanoseconds. -/
def oversizeRetry : ℕ := 30 * 10 ^ 9

/-- `AckLinePayload`: the ACK line of a frame with its newline, or the longest one for a frame of unknown shape. -/
def ackLinePayload (line : List Char) : ℕ :=
  if expectedAckText line ≠ [] then (expectedAckText line).length + 1 else 4 + 64 + 1 + 20 + 1

/-- `FrameCostBytes`: the frame, its TCP ACK alone and our reset if that is late, the ACK line and our ACK or reset
of it, and our reset of the exchange. -/
def frameCostBytes (line : List Char) (payload : ℕ) : ℕ :=
  tcpBytes payload + pureAck + reset + tcpBytes (ackLinePayload line) + pureAck + reset

/-- `FrameEgressBytes`: what our side sends for a frame that is answered. -/
def frameEgressBytes (payload : ℕ) : ℕ := tcpBytes payload + pureAck

/-- The HELLO line with its newline. -/
def helloLine (sessionId : List Char) : List Char := "HELLO,".toList ++ sessionId ++ ",z1:00000000\n".toList

/-- `ConnectEgressBytesLocked`. -/
def connectEgressBytes (sessionId : List Char) : ℕ :=
  syn + pureAck + tcpBytes (helloLine sessionId).length + pureAck

/-- `ConnectCostBytesLocked`: the handshake, the HELLO with its ACK and the reset of a late one, its answer with our
ACK, and our own reset. -/
def connectCostBytes (sessionId : List Char) : ℕ :=
  2 * syn + pureAck + tcpBytes (helloLine sessionId).length + pureAck + reset + tcpBytes helloReplyMaxBytes +
    pureAck + reset

/-- What stays held while a HELLO may still be answered: the answer and our ACK of it. -/
def lateHelloAnswer : ℕ := tcpBytes helloReplyMaxBytes + pureAck

end Coatheal.Link
