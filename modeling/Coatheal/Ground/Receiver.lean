import Coatheal.Ground.Protocol

/-!
# The two receivers of the ground station

The GUI and the command-line server take the same lines from the onboard. A line
is stripped, the offer of a codec is answered on its own, and a compressed line
is inflated; the text of a frame then goes to the parser of its kind. The GUI
knows no heating cycles: their lines are no telemetry to it.
-/

namespace Coatheal.Ground

open Library.PyText

/-- The receiver of the GUI and the one of the command-line server. -/
inductive Receiver where
  | gui
  | server
deriving DecidableEq, Repr

/-- What a receiver makes of the text of a frame. -/
inductive Frame where
  | cycle (event : HeatingCycleEvent)
  | pull (event : PullEvent)
  | telemetry (packet : TelemetryPacket)
  | unparseable
deriving DecidableEq

/-- A frame that was read, or one that could not be. -/
def Frame.ofOption {α : Type} (kind : α → Frame) : Option α → Frame
  | some value => kind value
  | none => .unparseable

/-- The kind of a line decides its parser. -/
def Receiver.read (receiver : Receiver) (text : List Char) : Frame :=
  if receiver = .server ∧ startsWith "EVT,CYCLE," text then .ofOption .cycle (parseHeatingCycleEvent text)
  else if startsWith "EVT,PULL," text then .ofOption .pull (parsePullEvent text)
  else .ofOption .telemetry (parseTelemetryCsv text)

/-- The ACK line for the text of a frame. -/
def Receiver.answer (receiver : Receiver) (text : List Char) : Option (List Char) :=
  match receiver.read text with
  | .cycle event => some (buildAck event.sessionId 0)
  | .pull event => some (buildAck event.sessionId 0)
  | .telemetry packet => some (buildAck packet.sessionId packet.seq)
  | .unparseable => ackForRawLine text

/-- The text of a frame in a line, if it is one: a blank line and the offer of a codec are not, a compressed
line is inflated, and one that cannot be is taken as it is. -/
def frameText (inflate : List Char → Option (List Char)) (line : List Char) : Option (List Char) :=
  let text := strip line
  if text = [] ∨ startsWith "HELLO," text then none
  else if startsWith "Z1," text then
    match inflate text with
    | some plain => if strip plain = [] then none else some (strip plain)
    | none => some text
  else some text

/-- The ACK line for a line from the onboard. -/
def Receiver.ackFor (receiver : Receiver) (inflate : List Char → Option (List Char)) (line : List Char) :
    Option (List Char) :=
  (frameText inflate line).bind receiver.answer

/-- The first fields of a frame that is answered tell which session and number the ACK names. -/
inductive AckOf (text ack : List Char) : Prop where
  | telemetry (seq : ℤ) (hkind : part (parts text) 0 = "DATA".toList) (hseq : int (part (parts text) 2) = some seq)
      (hack : ack = buildAck (part (parts text) 1) seq)
  | event (hkind : part (parts text) 0 = "EVT".toList) (hlength : 4 ≤ (parts text).length ∨ part (parts text) 2 ≠ [])
      (hack : ack = buildAck (part (parts text) 2) 0)

/-- A heating cycle that was read names its session in the third field. -/
theorem parseHeatingCycleEvent_some {text : List Char} {event : HeatingCycleEvent}
    (h : parseHeatingCycleEvent text = some event) :
    9 ≤ (parts text).length ∧ part (parts text) 0 = "EVT".toList ∧ event.sessionId = part (parts text) 2 := by
  unfold parseHeatingCycleEvent at h
  dsimp only at h
  split at h
  · cases h
  case isFalse hhead =>
    push Not at hhead
    simp only [Option.bind_eq_bind, Option.bind_eq_some_iff, Option.pure_def, Option.some.injEq] at h
    obtain ⟨_, _, _, _, _, _, _, _, _, _, rfl⟩ := h
    exact ⟨hhead.1, hhead.2.1, rfl⟩

/-- A pull that was read names its session in the third field. -/
theorem parsePullEvent_some {text : List Char} {event : PullEvent} (h : parsePullEvent text = some event) :
    9 ≤ (parts text).length ∧ part (parts text) 0 = "EVT".toList ∧ event.sessionId = part (parts text) 2 := by
  unfold parsePullEvent at h
  dsimp only at h
  split at h
  · cases h
  case isFalse hhead =>
    push Not at hhead
    simp only [Option.bind_eq_bind, Option.bind_eq_some_iff, Option.pure_def, Option.some.injEq] at h
    obtain ⟨_, _, _, _, _, _, _, _, _, _, _, _, rfl⟩ := h
    exact ⟨hhead.1, hhead.2.1, rfl⟩

/-- A packet that was read names its session in the second field and its number in the third. -/
theorem parseTelemetryCsv_some {text : List Char} {packet : TelemetryPacket}
    (h : parseTelemetryCsv text = some packet) :
    part (parts text) 0 = "DATA".toList ∧ packet.sessionId = part (parts text) 1 ∧
      int (part (parts text) 2) = some packet.seq := by
  unfold parseTelemetryCsv at h
  dsimp only at h
  split at h
  · cases h
  split at h
  · cases h
  case isFalse hkind =>
    simp only [Option.bind_eq_bind, Option.bind_eq_some_iff] at h
    obtain ⟨seq, hseq, _, _, _, _, _, _, _, _, _, _, _, _, _, _, _, _, hpacket⟩ := h
    split at hpacket
    · cases hpacket
    · cases hpacket
      exact ⟨not_not.mp hkind, rfl, hseq⟩

/-- The ACK of a raw line names what its first fields tell. -/
theorem ackForRawLine_some {text ack : List Char} (h : ackForRawLine text = some ack) : AckOf text ack := by
  unfold ackForRawLine at h
  dsimp only at h
  split at h
  case isTrue hdata =>
    obtain ⟨seq, hseq, rfl⟩ := Option.map_eq_some_iff.mp h
    exact .telemetry seq hdata.2.1 hseq rfl
  · split at h
    case isTrue hevent =>
      cases h
      exact .event hevent.2.1 (Or.inr hevent.2.2) rfl
    · cases h

/-- One of the parsers reads a line. -/
theorem Receiver.read_eq (receiver : Receiver) (text : List Char) :
    receiver.read text = .ofOption .cycle (parseHeatingCycleEvent text) ∨
      receiver.read text = .ofOption .pull (parsePullEvent text) ∨
      receiver.read text = .ofOption .telemetry (parseTelemetryCsv text) := by
  unfold read
  split
  · exact Or.inl rfl
  · split
    · exact Or.inr (Or.inl rfl)
    · exact Or.inr (Or.inr rfl)

/-- Whichever way a frame is answered, the ACK names what its first fields tell. -/
theorem Receiver.answer_some {receiver : Receiver} {text ack : List Char} (h : receiver.answer text = some ack) :
    AckOf text ack := by
  unfold answer at h
  rcases receiver.read_eq text with hread | hread | hread
  all_goals rw [hread] at h
  · cases hparse : parseHeatingCycleEvent text with
    | none =>
      rw [hparse] at h
      exact ackForRawLine_some h
    | some event =>
      rw [hparse] at h
      obtain rfl := Option.some.inj h
      obtain ⟨hlength, hkind, hsession⟩ := parseHeatingCycleEvent_some hparse
      exact .event hkind (Or.inl (by omega)) (by rw [hsession])
  · cases hparse : parsePullEvent text with
    | none =>
      rw [hparse] at h
      exact ackForRawLine_some h
    | some event =>
      rw [hparse] at h
      obtain rfl := Option.some.inj h
      obtain ⟨hlength, hkind, hsession⟩ := parsePullEvent_some hparse
      exact .event hkind (Or.inl (by omega)) (by rw [hsession])
  · cases hparse : parseTelemetryCsv text with
    | none =>
      rw [hparse] at h
      exact ackForRawLine_some h
    | some packet =>
      rw [hparse] at h
      obtain rfl := Option.some.inj h
      obtain ⟨hkind, hsession, hseq⟩ := parseTelemetryCsv_some hparse
      exact .telemetry packet.seq hkind hseq (by rw [hsession])

end Coatheal.Ground
