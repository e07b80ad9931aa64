import Coatheal.Delivery.System
import Coatheal.Library.Run

/-!
# Acknowledged frames are in the telemetry file

The receiver marks a frame as received, answers it, and writes its row last. A
frame that the onboard drops on an answer is in the file as long as every frame
that is marked gets its row before its number is answered again: no answer and no
row of a first frame fails, no restart comes between its mark and its row, and
the answer is not taken up before the row is written.
-/

namespace Coatheal.Delivery

open Coatheal.Library Coatheal.Library.Text Coatheal.Queue

/-- The number of a frame as its rows carry it. -/
def frameKey (frame : QueuedTelemetryFrame) : Key := (frame.sessionId, frame.seq.toNat)

/-- The number that is marked as received and still has to get its row. -/
def Ground.owed (ground : Ground) : Option Key :=
  ground.handling.bind fun handling => if handling.fresh then some handling.key else none

/-- A number that has its row or is about to get it. -/
def Ground.Backed (ground : Ground) (key : Key) : Prop := key ∈ ground.rows ∨ ground.owed = some key

/-- What begins like a telemetry frame is written out that way. -/
theorem isDataLine_iff {line : List Char} : isDataLine line = true ↔ ∃ rest, line = "DATA,".toList ++ rest := by
  rw [isDataLine, List.isPrefixOf_iff_prefix]
  exact ⟨fun ⟨rest, hrest⟩ => ⟨rest, hrest.symm⟩, fun ⟨rest, hrest⟩ => ⟨rest, hrest.symm⟩⟩

/-- A telemetry frame is still one when it is sent and its line is trimmed. -/
theorem isDataLine_tagged {frame : List Char} (h : isDataLine frame = true) (queuedEpochS now : ℤ) :
    isDataLine (trim isSpace (tagFrameForTransmit frame queuedEpochS now)) = true := by
  obtain ⟨rest, rfl⟩ := isDataLine_iff.mp h
  rw [tagFrameForTransmit, if_pos h, List.append_assoc, List.append_assoc]
  obtain ⟨trimmed, htrimmed⟩ := @trim_append isSpace 'D' ',' ['A', 'T', 'A'] rfl rfl
    (rest ++ (",TX=".toList ++ showInt (if now > queuedEpochS then now - queuedEpochS else 0)))
  exact isDataLine_iff.mpr ⟨trimmed, htrimmed⟩

/-- A telemetry line is not an event line. -/
theorem isDataLine_not_event {line : List Char} (h : isDataLine line = true) :
    "EVT,".toList.isPrefixOf line = false := by
  obtain ⟨rest, rfl⟩ := isDataLine_iff.mp h
  rfl

namespace World

/-- Every telemetry frame that an acknowledgement took out of the queue has its row. -/
def Delivered (world : World) : Prop :=
  ∀ frame ∈ world.left, isDataLine frame.frame = true → frameKey frame ∈ world.ground.rows

/-- The line in the receiver's hands that is not answered yet. -/
def unanswered (world : World) (link : ℕ) : List (List Char) :=
  match world.ground.current, world.ground.handling with
  | some current, some handling => if current = link ∧ handling.answered = false then [handling.line] else []
  | _, _ => []

/-- The lines of a connection that are sent, in hand, or on their way back as answers. -/
def outstanding (world : World) (link : ℕ) : List (List Char) :=
  (world.connections link).uplink ++ world.unanswered link ++
    (world.connections link).downlink.map Answer.line

/-- The next line that the receiver takes. -/
def nextLine (world : World) : Option (List Char) :=
  match world.ground.current, world.ground.handling with
  | some link, none => (world.connections link).uplink.head?
  | _, _ => none

/-- The step keeps a frame from being answered again without its row: what is owed is not lost, no
telemetry line is answered unread, and no acknowledgement is taken up while its row is owed. -/
def KeepsRows (wire : Wire) (world : World) : Event → Prop
  | .receive _ _ => ∀ exchange ∈ world.onboard.exchange, world.ground.owed ≠ some (frameKey exchange.1)
  | .read _ => ∀ line ∈ world.nextLine, isDataLine (trim isSpace line) = true →
      (wire.parseTelemetryCsv (trim isSpace line)).isSome = true
  | .answer sends => sends = true ∨ world.ground.owed = none
  | .writeRow writes => writes = true ∨ world.ground.owed = none
  | .groundRestart _ => world.ground.owed = none
  | _ => True

/-- What the receiver has marked, stored or answered has its row or is about to get it. -/
structure Recorded (world : World) : Prop where
  received : ∀ key ∈ world.ground.received, world.ground.Backed key
  cursor : ∀ key ∈ world.ground.cursor, world.ground.Backed key
  handled : ∀ handling ∈ world.ground.handling, handling.key ∈ world.ground.received
  answers : ∀ link, ∀ answer ∈ (world.connections link).downlink,
    isDataLine (trim isSpace answer.line) = true → world.ground.Backed answer.ack

/-- One exchange at a time is under way on the client's connection, and connections are numbered as
they are made. -/
structure InStep (world : World) : Prop where
  exchange : ∀ link ∈ world.onboard.link, world.outstanding link = [] ∨
    ∃ frame line, world.onboard.exchange = some (frame, line) ∧ world.outstanding link = [line]
  tagged : ∀ exchange ∈ world.onboard.exchange, isDataLine exchange.1.frame = true →
    isDataLine (trim isSpace exchange.2) = true
  linked : ∀ link ∈ world.onboard.link, link < world.nextLink
  serving : ∀ link ∈ world.ground.current, link < world.nextLink
  accepting : world.ground.nextAccept ≤ world.nextLink
  held : world.ground.handling.isSome = true → world.ground.current.isSome = true
  unused : ∀ link, world.nextLink ≤ link → world.connections link = ⟨[], []⟩

variable {wire : Wire} {world after : World}

/-- Changing a connection leaves the rest of the system. -/
@[simp]
theorem onConnection_ground (link : ℕ) (change : Connection → Connection) :
    (world.onConnection link change).ground = world.ground := rfl

/-- Changing a connection leaves the onboard side. -/
@[simp]
theorem onConnection_onboard (link : ℕ) (change : Connection → Connection) :
    (world.onConnection link change).onboard = world.onboard := rfl

/-- Changing a connection makes none. -/
@[simp]
theorem onConnection_nextLink (link : ℕ) (change : Connection → Connection) :
    (world.onConnection link change).nextLink = world.nextLink := rfl

/-- Changing a connection removes no frame. -/
@[simp]
theorem onConnection_left (link : ℕ) (change : Connection → Connection) :
    (world.onConnection link change).left = world.left := rfl

/-- Changing a connection changes that one alone. -/
theorem onConnection_connections (link other : ℕ) (change : Connection → Connection) :
    (world.onConnection link change).connections other =
      if other = link then change (world.connections link) else world.connections other :=
  Function.update_apply _ _ _ _

/-- Changing a connection leaves the line in hand. -/
@[simp]
theorem onConnection_unanswered (link other : ℕ) (change : Connection → Connection) :
    (world.onConnection link change).unanswered other = world.unanswered other := rfl

/-- At most a line is at most that line. -/
theorem eq_nil_or_of_subperm {lines : List (List Char)} {line : List Char} (h : lines.Subperm [line]) :
    lines = [] ∨ lines = [line] := by
  have hlength := h.length_le
  match lines, h with
  | [], _ => exact Or.inl rfl
  | [other], h => exact Or.inr (by rw [List.mem_singleton.mp (h.subset List.mem_cons_self)])
  | _ :: _ :: _, _ => simp at hlength

/-- A step that puts no line on its way keeps the exchange in step. -/
theorem InStep.of_subperm (h : InStep world) (hlink : after.onboard.link = world.onboard.link)
    (hexchange : after.onboard.exchange = world.onboard.exchange) (hnext : after.nextLink = world.nextLink)
    (hout : ∀ link, (after.outstanding link).Subperm (world.outstanding link))
    (hserving : ∀ link ∈ after.ground.current, link < world.nextLink)
    (haccepting : after.ground.nextAccept ≤ world.nextLink)
    (hheld : after.ground.handling.isSome = true → after.ground.current.isSome = true)
    (hunused : ∀ link, world.nextLink ≤ link → after.connections link = ⟨[], []⟩) : InStep after where
  exchange := by
    intro link hmem
    rw [hlink] at hmem
    rw [hexchange]
    rcases h.exchange link hmem with hnone | ⟨frame, line, hsent, hone⟩
    · have hsub := hout link
      rw [hnone] at hsub
      exact Or.inl (List.subperm_nil.mp hsub)
    · have hsub := hout link
      rw [hone] at hsub
      rcases eq_nil_or_of_subperm hsub with hnone | hsame
      · exact Or.inl hnone
      · exact Or.inr ⟨frame, line, hsent, hsame⟩
  tagged := by rw [hexchange]; exact h.tagged
  linked := by rw [hlink, hnext]; exact h.linked
  serving := by rw [hnext]; exact hserving
  accepting := by rw [hnext]; exact haccepting
  held := hheld
  unused := by rw [hnext]; exact hunused

/-- A connection that nothing was sent over is at rest. -/
theorem InStep.outstanding_unused (h : InStep world) {link : ℕ} (hlink : world.nextLink ≤ link) :
    world.outstanding link = [] := by
  have hunanswered : world.unanswered link = [] := by
    unfold unanswered
    split
    case h_1 current handling hcurrent hhandling =>
      have hless := h.serving current hcurrent
      rw [if_neg (by omega)]
    case h_2 => rfl
  rw [outstanding, hunanswered, h.unused link hlink]
  rfl

/-- An unused connection stays empty when another one changes. -/
theorem InStep.unused_update (h : InStep world) {link : ℕ} (hlink : link < world.nextLink)
    (connection : Connection) (other : ℕ) (hother : world.nextLink ≤ other) :
    Function.update world.connections link connection other = ⟨[], []⟩ := by
  rw [Function.update_of_ne (by omega)]
  exact h.unused other hother

/-- Without a connection no exchange is under way. -/
theorem InStep.abort (h : InStep world) (queue : TelemetryQueue) :
    InStep { world with onboard := ⟨queue, none, none⟩ } where
  exchange := fun _ hmem => absurd hmem (by simp)
  tagged := fun _ hmem => absurd hmem (by simp)
  linked := fun _ hmem => absurd hmem (by simp)
  serving := h.serving
  accepting := h.accepting
  held := h.held
  unused := h.unused

/-- The receiver gives up its connection. -/
theorem InStep.drop (h : InStep world) : InStep world.drop := by
  refine h.of_subperm rfl rfl rfl (fun link => ?_) (fun _ hmem => absurd hmem (by simp [World.drop])) h.accepting
    (fun hsome => absurd hsome (by simp [World.drop])) h.unused
  have hunanswered : world.drop.unanswered link = [] := rfl
  have hsame : world.drop.connections link = world.connections link := rfl
  rw [outstanding, outstanding, hunanswered, hsame, List.append_nil]
  exact ((List.sublist_append_left _ _).append (List.Sublist.refl _)).subperm

/-- A connection to a ground station that listens is a new one. -/
theorem InStep.connect (h : InStep world) :
    InStep { world with
      onboard := { world.onboard with link := some world.nextLink, exchange := world.onboard.exchange }
      nextLink := world.nextLink + 1 } where
  exchange := by
    intro link hmem
    obtain rfl := Option.some.inj hmem
    exact Or.inl (h.outstanding_unused (le_refl _))
  tagged := h.tagged
  linked := by
    intro link hmem
    obtain rfl := Option.some.inj hmem
    exact Nat.lt_succ_self _
  serving := fun link hmem => Nat.lt_succ_of_lt (h.serving link hmem)
  accepting := Nat.le_succ_of_le h.accepting
  held := h.held
  unused := fun link hlink => h.unused link (Nat.le_of_succ_le hlink)

/-- Sending puts one line on a connection at rest, or nothing. -/
theorem InStep.send (h : InStep world) (choice : Choice) (now : ℤ) : InStep (world.send choice now) := by
  unfold World.send
  split
  case h_1 link frame hlink hexchange hframe =>
    have hless := h.linked link hlink
    have hrest : world.outstanding link = [] := by
      rcases h.exchange link hlink with hnone | ⟨sent, line, hsent, -⟩
      · exact hnone
      · rw [hexchange] at hsent
        exact absurd hsent (by simp)
    refine ⟨?_, ?_, h.linked, h.serving, h.accepting, h.held, h.unused_update hless _⟩
    · intro other hother
      obtain rfl : link = other := Option.some.inj (hlink.symm.trans hother)
      refine Or.inr ⟨_, _, rfl, ?_⟩
      simp only [outstanding, List.append_eq_nil_iff, List.map_eq_nil_iff] at hrest
      obtain ⟨⟨hup, hunanswered⟩, hdown⟩ := hrest
      rw [outstanding, onConnection_connections, if_pos rfl]
      change (world.connections link).uplink ++ [_] ++ world.unanswered link ++
        (world.connections link).downlink.map Answer.line = _
      rw [hup, hunanswered, hdown]
      rfl
    · intro exchange hsent hdata
      obtain rfl := Option.some.inj hsent
      exact isDataLine_tagged hdata _ _
  case h_2 => exact h

/-- The client takes up the acknowledgement of its frame. -/
def acknowledged (world : World) (link : ℕ) (frame : QueuedTelemetryFrame) (rest : List Answer) (steady : ℤ)
    (io : OperationIo) : World :=
  { world with
    onboard :=
      { world.onboard with
        queue := world.onboard.queue.acknowledgeExact steady frame io, exchange := none }
    left := world.left ++ removedBy world.onboard.queue.backlog frame }.onConnection link
      fun connection => { connection with downlink := rest }

/-- Everything that taking up an answer can do. -/
inductive Received (world : World) (steady : ℤ) (io : OperationIo) : World → Prop where
  | idle : Received world steady io world
  | rejected : Received world steady io world.abortLink
  | accepted (link : ℕ) (frame : QueuedTelemetryFrame) (line : List Char) (answer : Answer)
      (rest : List Answer) (hlink : world.onboard.link = some link)
      (hexchange : world.onboard.exchange = some (frame, line))
      (hdown : (world.connections link).downlink = answer :: rest)
      (haccepts : accepts frame line answer.ack = true) :
      Received world steady io (world.acknowledged link frame rest steady io)

/-- Taking up an answer does nothing, resets the connection, or acknowledges the frame. -/
theorem receive_cases (world : World) (steady : ℤ) (io : OperationIo) :
    Received world steady io (world.receive steady io) := by
  unfold receive
  split
  case h_1 link frame line hlink hexchange =>
    split
    · exact .idle
    case h_2 answer rest hdown =>
      by_cases haccepts : accepts frame line answer.ack = true
      · rw [if_pos haccepts]
        exact .accepted link frame line answer rest hlink hexchange hdown haccepts
      · rw [if_neg haccepts]
        exact .rejected
  case h_2 => exact .idle

/-- The next line leaves the connection. -/
def taken (world : World) (link : ℕ) (rest : List (List Char)) : World :=
  world.onConnection link fun connection => { connection with uplink := rest }

/-- The next line leaves the connection and is answered at once. -/
def repliedTo (world : World) (link : ℕ) (line : List Char) (rest : List (List Char)) (ack : Key) : World :=
  world.onConnection link fun connection => ⟨rest, connection.downlink ++ [⟨line, ack⟩]⟩

/-- Everything that taking the next line can do. -/
inductive Read (wire : Wire) (world : World) : World → Prop where
  | idle : Read wire world world
  | passed (link : ℕ) (line : List Char) (rest : List (List Char))
      (hcurrent : world.ground.current = some link) (hhandling : world.ground.handling = none)
      (hup : (world.connections link).uplink = line :: rest) : Read wire world (world.taken link rest)
  | dropped (link : ℕ) (line : List Char) (rest : List (List Char))
      (hcurrent : world.ground.current = some link) (hhandling : world.ground.handling = none)
      (hup : (world.connections link).uplink = line :: rest) : Read wire world (world.taken link rest).drop
  | replied (link : ℕ) (line : List Char) (rest : List (List Char)) (ack : Key)
      (hcurrent : world.ground.current = some link) (hhandling : world.ground.handling = none)
      (hup : (world.connections link).uplink = line :: rest)
      (hreading : ∀ key, wire.reading line ≠ .telemetry key) :
      Read wire world (world.repliedTo link line rest ack)
  | marked (link : ℕ) (line : List Char) (rest : List (List Char)) (key : Key)
      (hcurrent : world.ground.current = some link) (hhandling : world.ground.handling = none)
      (hup : (world.connections link).uplink = line :: rest) :
      Read wire world ((world.taken link rest).marked line key)

/-- The next line is passed over, answered at once, lost with the connection, or marked. -/
theorem read_cases (wire : Wire) (world : World) (answers : Bool) :
    Read wire world (world.read wire answers) := by
  unfold read
  split
  case h_1 link hcurrent hhandling =>
    split
    · exact .idle
    case h_2 line rest hup =>
      have hreply (ack : Key) (hreading : ∀ key, wire.reading line ≠ .telemetry key) :
          Read wire world ((world.taken link rest).reply link line ack answers) := by
        cases answers with
        | true =>
          have hboth : (world.taken link rest).onConnection link (·.reply ⟨line, ack⟩) =
              world.repliedTo link line rest ack := by
            simp [taken, repliedTo, onConnection, Connection.reply]
          rw [reply, if_pos rfl, hboth]
          exact .replied link line rest ack hcurrent hhandling hup hreading
        | false => exact .dropped link line rest hcurrent hhandling hup
      cases hreading : wire.reading line with
      | event sessionId => exact hreply _ (by simp [hreading])
      | telemetry key => exact .marked link line rest key hcurrent hhandling hup
      | unparseable ack =>
        cases ack with
        | none => exact .passed link line rest hcurrent hhandling hup
        | some ack => exact hreply ack (by simp [hreading])
  case h_2 => exact .idle

/-- The frame in hand is answered. -/
def answered (world : World) (link : ℕ) (handling : Handling) : World :=
  { world with ground := { world.ground with handling := some { handling with answered := true } } }.onConnection
    link (·.reply ⟨handling.line, handling.key⟩)

/-- Everything that answering the frame in hand can do. -/
inductive Answered (world : World) (sends : Bool) : World → Prop where
  | idle : Answered world sends world
  | failed (hsends : sends = false) : Answered world sends world.drop
  | sent (link : ℕ) (handling : Handling) (hcurrent : world.ground.current = some link)
      (hhandling : world.ground.handling = some handling) (hanswered : handling.answered = false) :
      Answered world sends (world.answered link handling)

/-- The frame in hand is answered, or lost with the connection, or was answered before. -/
theorem answer_cases (world : World) (sends : Bool) : Answered world sends (world.answer sends) := by
  unfold answer
  split
  case h_1 link handling hcurrent hhandling =>
    by_cases hanswered : handling.answered = true
    · rw [if_pos hanswered]
      exact .idle
    · rw [if_neg hanswered]
      cases sends with
      | true => exact .sent link handling hcurrent hhandling (Bool.eq_false_iff.mpr hanswered)
      | false => exact .failed rfl
  case h_2 => exact .idle

/-- With nothing in hand nothing is unanswered. -/
theorem unanswered_of_none (hhandling : world.ground.handling = none) (link : ℕ) : world.unanswered link = [] := by
  rw [unanswered, hhandling]
  cases world.ground.current <;> rfl

/-- What is in hand on the served connection and not answered is unanswered. -/
theorem unanswered_of_some {link : ℕ} {handling : Handling} (hcurrent : world.ground.current = some link)
    (hhandling : world.ground.handling = some handling) :
    world.unanswered link = if handling.answered = false then [handling.line] else [] := by
  rw [unanswered, hcurrent, hhandling]
  simp

/-- Before the next line is taken it is under way. -/
theorem outstanding_next {link : ℕ} {line : List Char} {rest : List (List Char)}
    (hup : (world.connections link).uplink = line :: rest) (hhandling : world.ground.handling = none) :
    world.outstanding link = line :: (rest ++ (world.connections link).downlink.map Answer.line) := by
  rw [outstanding, hup, unanswered_of_none hhandling, List.append_nil, List.cons_append]

/-- What is under way on a connection that was changed. -/
theorem outstanding_changed {link : ℕ} {uplink : List (List Char)} {downlink : List Answer}
    (hconnection : after.connections link = ⟨uplink, downlink⟩) :
    after.outstanding link = uplink ++ after.unanswered link ++ downlink.map Answer.line := by
  rw [outstanding, hconnection]

/-- The receiver works on its own connection and puts no line on its way. -/
theorem InStep.serve (h : InStep world) {link : ℕ} (hcurrent : world.ground.current = some link)
    (hafter : after.onboard = world.onboard ∧ after.nextLink = world.nextLink ∧
      after.ground.current = some link ∧ after.ground.nextAccept = world.ground.nextAccept)
    (hothers : ∀ other, other ≠ link → after.connections other = world.connections other)
    (hout : (after.outstanding link).Subperm (world.outstanding link)) : InStep after := by
  obtain ⟨honboard, hnext, hserves, haccepts⟩ := hafter
  have hless := h.serving link hcurrent
  refine h.of_subperm (by rw [honboard]) (by rw [honboard]) hnext (fun other => ?_) ?_ ?_ ?_ ?_
  · by_cases hsame : other = link
    · rw [hsame]
      exact hout
    · have hunanswered : after.unanswered other = [] := by
        rw [unanswered, hserves]
        cases after.ground.handling with
        | none => rfl
        | some handling => exact if_neg fun hboth => hsame hboth.1.symm
      rw [outstanding, outstanding, hunanswered, hothers other hsame, List.append_nil]
      exact ((List.sublist_append_left _ _).append (List.Sublist.refl _)).subperm
  · intro other hmem
    rw [hserves] at hmem
    rwa [← Option.some.inj hmem]
  · rw [haccepts]
    exact h.accepting
  · intro _
    rw [hserves]
    rfl
  · intro other hother
    rw [hothers other (by omega)]
    exact h.unused other hother

/-- Taking the next line keeps the exchange in step. -/
theorem InStep.read (h : InStep world) (answers : Bool) : InStep (world.read wire answers) := by
  have hcases := read_cases wire world answers
  generalize world.read wire answers = after at hcases ⊢
  have hpassed {link : ℕ} {line : List Char} {rest : List (List Char)}
      (hcurrent : world.ground.current = some link) (hhandling : world.ground.handling = none)
      (hup : (world.connections link).uplink = line :: rest) : InStep (world.taken link rest) := by
    refine h.serve hcurrent ⟨rfl, rfl, hcurrent, rfl⟩ (fun other hne => Function.update_of_ne hne _ _) ?_
    have hunanswered : (world.taken link rest).unanswered link = [] := @unanswered_of_none _ hhandling link
    rw [outstanding_next hup hhandling, outstanding_changed (Function.update_self _ _ _), hunanswered,
      List.append_nil]
    exact (List.sublist_cons_self _ _).subperm
  cases hcases with
  | idle => exact h
  | passed link line rest hcurrent hhandling hup => exact hpassed hcurrent hhandling hup
  | dropped link line rest hcurrent hhandling hup => exact (hpassed hcurrent hhandling hup).drop
  | replied link line rest ack hcurrent hhandling hup hreading =>
    refine h.serve hcurrent ⟨rfl, rfl, hcurrent, rfl⟩ (fun other hne => Function.update_of_ne hne _ _) ?_
    have hunanswered : (world.repliedTo link line rest ack).unanswered link = [] :=
      @unanswered_of_none _ hhandling link
    rw [outstanding_next hup hhandling, outstanding_changed (Function.update_self _ _ _), hunanswered,
      List.append_nil, List.map_append, ← List.append_assoc]
    exact (List.perm_append_singleton line _).subperm
  | marked link line rest key hcurrent hhandling hup =>
    refine h.serve hcurrent ⟨rfl, rfl, hcurrent, rfl⟩ (fun other hne => Function.update_of_ne hne _ _) ?_
    have hconnection : ((world.taken link rest).marked line key).connections link =
        ⟨rest, (world.connections link).downlink⟩ := Function.update_self _ _ _
    have hunanswered : ((world.taken link rest).marked line key).unanswered link = [line] :=
      @unanswered_of_some ((world.taken link rest).marked line key) _ _ hcurrent rfl
    rw [outstanding_next hup hhandling, outstanding_changed hconnection, hunanswered, List.append_assoc]
    exact List.perm_middle.subperm

/-- Answering the frame in hand keeps the exchange in step. -/
theorem InStep.answer (h : InStep world) (sends : Bool) : InStep (world.answer sends) := by
  have hcases := answer_cases world sends
  generalize world.answer sends = after at hcases ⊢
  cases hcases with
  | idle => exact h
  | failed hsends => exact h.drop
  | sent link handling hcurrent hhandling hanswered =>
    refine h.serve hcurrent ⟨rfl, rfl, hcurrent, rfl⟩ (fun other hne => Function.update_of_ne hne _ _) ?_
    have hconnection : (world.answered link handling).connections link =
        (world.connections link).reply ⟨handling.line, handling.key⟩ := Function.update_self _ _ _
    have hunanswered : (world.answered link handling).unanswered link = [] :=
      @unanswered_of_some (world.answered link handling) _ _ hcurrent rfl
    rw [outstanding, outstanding, hconnection, hunanswered, unanswered_of_some hcurrent hhandling, if_pos hanswered,
      Connection.reply, List.append_nil, List.map_append, List.append_assoc]
    exact (List.Perm.append_left _ List.perm_append_comm).subperm

/-- Taking up an answer ends the exchange it belongs to. -/
theorem InStep.receive (h : InStep world) (steady : ℤ) (io : OperationIo) :
    InStep (world.receive steady io) := by
  have hcases := receive_cases world steady io
  generalize world.receive steady io = after at hcases ⊢
  cases hcases with
  | idle => exact h
  | rejected => exact h.abort world.onboard.queue
  | accepted link frame line answer rest hlink hexchange hdown haccepts =>
    have hless := h.linked link hlink
    refine ⟨?_, fun _ hmem => absurd hmem (by simp [acknowledged]), h.linked, h.serving, h.accepting, h.held,
      h.unused_update hless _⟩
    intro other hother
    obtain rfl : link = other := Option.some.inj (hlink.symm.trans hother)
    refine Or.inl ?_
    have hone : world.outstanding link = [line] := by
      rcases h.exchange link hlink with hnone | ⟨sent, sentLine, hsent, hone⟩
      · simp [outstanding, hdown] at hnone
      · rw [hexchange] at hsent
        obtain ⟨-, rfl⟩ := Prod.mk.inj (Option.some.inj hsent)
        exact hone
    have hconnection : (world.acknowledged link frame rest steady io).connections link =
        ⟨(world.connections link).uplink, rest⟩ := Function.update_self _ _ _
    have hlength := congrArg List.length hone
    rw [outstanding, hdown] at hlength
    simp only [List.length_append, List.length_map, List.length_cons, List.length_nil] at hlength
    rw [outstanding_changed hconnection, ← List.length_eq_zero_iff]
    change ((world.connections link).uplink ++ world.unanswered link ++ rest.map Answer.line).length = 0
    simp only [List.length_append, List.length_map]
    omega

/-- A step that changes what the receiver holds, and none of the connections, keeps the exchange in
step if no more is unanswered. -/
theorem InStep.hold (h : InStep world) (hafter : after.onboard = world.onboard ∧
      after.nextLink = world.nextLink ∧ after.connections = world.connections)
    (hunanswered : ∀ link, after.unanswered link = [] ∨ after.unanswered link = world.unanswered link)
    (hserving : ∀ link ∈ after.ground.current, link < world.nextLink)
    (haccepting : after.ground.nextAccept ≤ world.nextLink)
    (hheld : after.ground.handling.isSome = true → after.ground.current.isSome = true) : InStep after := by
  obtain ⟨honboard, hnext, hconnections⟩ := hafter
  refine h.of_subperm (by rw [honboard]) (by rw [honboard]) hnext (fun link => ?_) hserving haccepting hheld
    (by rw [hconnections]; exact h.unused)
  rw [outstanding, outstanding, hconnections]
  rcases hunanswered link with hnone | hsame
  · rw [hnone, List.append_nil]
    exact ((List.sublist_append_left _ _).append (List.Sublist.refl _)).subperm
  · rw [hsame]

/-- Every step keeps one exchange at a time. -/
theorem InStep.step (h : InStep world) (event : Event) : InStep (world.step wire event) := by
  cases event with
  | restart now io => exact h.abort _
  | enqueue now steady frame io =>
    exact h.of_subperm rfl rfl rfl (fun _ => List.Subperm.refl _) h.serving h.accepting h.held h.unused
  | connect =>
    cases hlink : world.onboard.link with
    | none =>
      simp only [World.step, hlink]
      exact h.connect
    | some link =>
      simp only [World.step, hlink]
      exact h
  | send choice now => exact h.send choice now
  | receive steady io => exact h.receive steady io
  | abort => exact h.abort world.onboard.queue
  | lose link =>
    refine h.of_subperm rfl rfl rfl (fun other => ?_) h.serving h.accepting h.held fun other hother => ?_
    · change ((world.onConnection link fun _ => Connection.mk [] []).outstanding other).Subperm _
      rw [outstanding, outstanding, onConnection_connections]
      by_cases hsame : other = link
      · rw [if_pos hsame]
        exact ((List.nil_sublist _).append (List.Sublist.refl _) |>.append (List.nil_sublist _)).subperm
      · rw [if_neg hsame]
        exact List.Subperm.refl _
    · change (world.onConnection link fun _ => Connection.mk [] []).connections other = _
      rw [onConnection_connections, h.unused other hother, ite_self]
  | accept =>
    by_cases haccept : world.ground.current = none ∧ world.ground.nextAccept < world.nextLink
    · simp only [World.step, if_pos haccept]
      have hhandling : world.ground.handling = none := by
        by_contra hsome
        have hserves := h.held (Option.isSome_iff_ne_none.mpr hsome)
        rw [haccept.1] at hserves
        exact absurd hserves (by simp)
      refine h.hold ⟨rfl, rfl, rfl⟩ (fun link => Or.inl (unanswered_of_none (by exact hhandling) link)) ?_
        haccept.2 ?_
      · intro link hmem
        obtain rfl := Option.some.inj hmem
        exact haccept.2
      · intro _
        rfl
    · simp only [World.step, if_neg haccept]
      exact h
  | close =>
    simp only [World.step]
    split
    · exact h.drop
    · exact h
  | read answers => exact h.read answers
  | answer sends => exact h.answer sends
  | persist => exact h.hold ⟨rfl, rfl, rfl⟩ (fun _ => Or.inr rfl) h.serving h.accepting h.held
  | writeRow writes =>
    simp only [World.step, World.writeRow]
    split
    · split
      · exact h.hold ⟨rfl, rfl, rfl⟩ (fun link => Or.inl (@unanswered_of_none _ rfl link)) h.serving h.accepting
          (fun hsome => absurd hsome (by simp))
      · exact h
    · exact h
  | groundRestart loads =>
    exact h.hold ⟨rfl, rfl, rfl⟩ (fun _ => Or.inl rfl) (fun _ hmem => absurd hmem (by simp [World.step]))
      h.accepting (fun hsome => absurd hsome (by simp [World.step]))

/-- A step keeps the records if every number that had its row or was about to get it still has, and
what is new in them has too. -/
theorem Recorded.keep (h : Recorded world)
    (hbacked : ∀ key, world.ground.Backed key → after.ground.Backed key)
    (hreceived : ∀ key ∈ after.ground.received, key ∈ world.ground.received ∨ after.ground.Backed key)
    (hcursor : ∀ key ∈ after.ground.cursor, key ∈ world.ground.cursor ∨ key ∈ world.ground.received)
    (hhandled : ∀ handling ∈ after.ground.handling, handling.key ∈ after.ground.received)
    (hanswers : ∀ link, ∀ answer ∈ (after.connections link).downlink,
      answer ∈ (world.connections link).downlink ∨
        (isDataLine (trim isSpace answer.line) = true → after.ground.Backed answer.ack)) : Recorded after where
  received := fun key hmem => (hreceived key hmem).elim (fun hold => hbacked key (h.received key hold)) id
  cursor := fun key hmem => hbacked key ((hcursor key hmem).elim (h.cursor key) (h.received key))
  handled := hhandled
  answers := fun link answer hmem hdata => (hanswers link answer hmem).elim
    (fun hold => hbacked _ (h.answers link answer hold hdata)) (fun hnew => hnew hdata)

/-- A step that leaves the receiver's records alone keeps them. -/
theorem Recorded.same (h : Recorded world) (hrows : after.ground.rows = world.ground.rows)
    (hhandling : after.ground.handling = world.ground.handling)
    (hreceived : after.ground.received = world.ground.received)
    (hcursor : ∀ key ∈ after.ground.cursor, key ∈ world.ground.cursor ∨ key ∈ world.ground.received)
    (hdown : ∀ link, ∀ answer ∈ (after.connections link).downlink,
      answer ∈ (world.connections link).downlink) : Recorded after := by
  refine h.keep (fun key hkey => ?_) (fun key hmem => Or.inl (hreceived ▸ hmem)) hcursor ?_
    (fun link answer hmem => Or.inl (hdown link answer hmem))
  · rw [Ground.Backed, Ground.owed, hrows, hhandling]
    exact hkey
  · rw [hhandling, hreceived]
    exact h.handled

/-- Where no row is owed, a number that is backed has its row. -/
theorem backed_of_owed_none {ground : Ground} {key : Key} (howed : ground.owed = none) (h : ground.Backed key) :
    key ∈ ground.rows := by
  rcases h with hrow | hheld
  · exact hrow
  · rw [howed] at hheld
    exact absurd hheld (by simp)

/-- Giving up the connection keeps the records where no row is owed. -/
theorem Recorded.drop (h : Recorded world) (howed : world.ground.owed = none) : Recorded world.drop :=
  h.keep (fun key hkey => Or.inl (@backed_of_owed_none world.ground key howed hkey)) (fun _ hmem => Or.inl hmem)
    (fun _ hmem => Or.inl hmem) (fun _ hmem => absurd hmem (by simp [World.drop])) (fun _ _ hmem => Or.inl hmem)

/-- A line that the receiver answers without a row is not a telemetry line, where those are read. -/
theorem not_isDataLine_of_reading {line : List Char} (hreading : ∀ key, wire.reading line ≠ .telemetry key)
    (hread : isDataLine (trim isSpace line) = true →
      (wire.parseTelemetryCsv (trim isSpace line)).isSome = true) :
    isDataLine (trim isSpace line) ≠ true := by
  intro hdata
  obtain ⟨key, hkey⟩ := Option.isSome_iff_exists.mp (hread hdata)
  refine hreading key ?_
  simp only [Wire.reading, isDataLine_not_event hdata, hkey]
  rfl

/-- Taking the next line keeps the records: the number of a telemetry line is marked and its row is
owed, and no telemetry line is answered unread. -/
theorem Recorded.read (h : Recorded world) {answers : Bool} (hkeeps : world.KeepsRows wire (.read answers)) :
    Recorded (world.read wire answers) := by
  have hcases := read_cases wire world answers
  generalize world.read wire answers = after at hcases ⊢
  have hnothing (hhandling : world.ground.handling = none) : world.ground.owed = none := by
    rw [Ground.owed, hhandling]
    rfl
  have hpopped (link : ℕ) (rest : List (List Char)) (other : ℕ) :
      ∀ answer ∈ ((world.taken link rest).connections other).downlink,
        answer ∈ (world.connections other).downlink := by
    intro answer hmem
    rw [taken, onConnection_connections] at hmem
    by_cases hsame : other = link
    · rw [if_pos hsame] at hmem
      rwa [hsame]
    · rwa [if_neg hsame] at hmem
  have hpassed (link : ℕ) (rest : List (List Char)) : Recorded (world.taken link rest) :=
    h.same rfl rfl rfl (fun _ hmem => Or.inl hmem) (hpopped link rest)
  cases hcases with
  | idle => exact h
  | passed link line rest hcurrent hhandling hup => exact hpassed link rest
  | dropped link line rest hcurrent hhandling hup => exact (hpassed link rest).drop (hnothing hhandling)
  | replied link line rest ack hcurrent hhandling hup hreading =>
    have hline : line ∈ world.nextLine := by
      rw [nextLine, hcurrent, hhandling]
      simp [hup]
    have hdata := not_isDataLine_of_reading hreading (hkeeps line hline)
    refine h.keep (fun _ hkey => hkey) (fun _ hmem => Or.inl hmem) (fun _ hmem => Or.inl hmem) h.handled ?_
    intro other answer hmem
    rw [repliedTo, onConnection_connections] at hmem
    by_cases hsame : other = link
    · rw [if_pos hsame] at hmem
      rcases List.mem_append.mp hmem with hold | hnew
      · exact Or.inl (hsame ▸ hold)
      · rw [List.mem_singleton.mp hnew]
        exact Or.inr fun hline => absurd hline hdata
    · rw [if_neg hsame] at hmem
      exact Or.inl hmem
  | marked link line rest key hcurrent hhandling hup =>
    refine h.keep
      (fun other hkey => Or.inl (@backed_of_owed_none world.ground other (hnothing hhandling) hkey)) ?_
      (fun _ hmem => Or.inl hmem) ?_ (fun other answer hmem => Or.inl (hpopped link rest other answer hmem))
    · intro other hmem
      by_cases hold : key ∈ world.ground.received
      · exact Or.inl (by simpa [marked, taken, hold] using hmem)
      · have hcases : other = key ∨ other ∈ world.ground.received := by
          simpa [marked, taken, hold] using hmem
        refine hcases.symm.imp id ?_
        rintro rfl
        exact Or.inr (by simp [Ground.owed, marked, taken, hold])
    · intro handling hmem
      obtain rfl := Option.some.inj hmem
      by_cases hold : key ∈ world.ground.received
      · simp [marked, taken, hold]
      · simp [marked, taken, hold]

/-- Answering the frame in hand keeps the records: its number is marked. -/
theorem Recorded.answer (h : Recorded world) {sends : Bool}
    (hkeeps : world.KeepsRows wire (.answer sends)) : Recorded (world.answer sends) := by
  have hcases := answer_cases world sends
  generalize world.answer sends = after at hcases ⊢
  cases hcases with
  | idle => exact h
  | failed hsends => exact h.drop (hkeeps.resolve_left (by simp [hsends]))
  | sent link handling hcurrent hhandling hanswered =>
    have howed : (world.answered link handling).ground.owed = world.ground.owed := by
      simp only [Ground.owed, hhandling]
      rfl
    have hsame (key : Key) : (world.answered link handling).ground.Backed key ↔ world.ground.Backed key := by
      rw [Ground.Backed, Ground.Backed, howed]
      rfl
    refine h.keep (fun key hkey => (hsame key).mpr hkey) (fun _ hmem => Or.inl hmem)
      (fun _ hmem => Or.inl hmem) ?_ ?_
    · intro other hmem
      obtain rfl := Option.some.inj hmem
      exact h.handled handling hhandling
    · intro other answer hmem
      rw [answered, onConnection_connections] at hmem
      by_cases hlink : other = link
      · rw [if_pos hlink] at hmem
        rcases List.mem_append.mp hmem with hold | hnew
        · exact Or.inl (hlink ▸ hold)
        · rw [List.mem_singleton.mp hnew]
          exact Or.inr fun _ => (hsame _).mpr (h.received _ (h.handled handling hhandling))
      · rw [if_neg hlink] at hmem
        exact Or.inl hmem

/-- Writing the row that is owed keeps the records. -/
theorem Recorded.writeRow (h : Recorded world) {writes : Bool}
    (hkeeps : world.KeepsRows wire (.writeRow writes)) : Recorded (world.writeRow writes) := by
  unfold World.writeRow
  split
  case h_1 handling hhandling =>
    by_cases hanswered : handling.answered = true
    · rw [if_pos hanswered]
      refine h.keep (fun key hkey => Or.inl ?_) (fun _ hmem => Or.inl hmem) (fun _ hmem => Or.inl hmem)
        (fun _ hmem => absurd hmem (by simp)) (fun _ _ hmem => Or.inl hmem)
      change key ∈ (if handling.fresh && writes then handling.key :: world.ground.rows else world.ground.rows)
      have howed : world.ground.owed = if handling.fresh then some handling.key else none := by
        rw [Ground.owed, hhandling]
        rfl
      rcases hkey with hrow | hheld
      · split
        · exact List.mem_cons_of_mem _ hrow
        · exact hrow
      · rw [howed] at hheld
        by_cases hfresh : handling.fresh = true
        · rw [if_pos hfresh] at hheld howed
          have hwrites : writes = true := hkeeps.resolve_right (by simp [howed])
          rw [hfresh, hwrites, ← Option.some.inj hheld]
          exact List.mem_cons_self
        · rw [if_neg hfresh] at hheld
          exact absurd hheld (by simp)
    · rw [if_neg hanswered]
      exact h
  case h_2 => exact h

/-- Taking up an answer leaves the receiver and at most the answers there were. -/
theorem Recorded.receive (h : Recorded world) (steady : ℤ) (io : OperationIo) :
    Recorded (world.receive steady io) := by
  have hcases := receive_cases world steady io
  generalize world.receive steady io = after at hcases ⊢
  cases hcases with
  | idle => exact h
  | rejected => exact h.same rfl rfl rfl (fun _ hmem => Or.inl hmem) (fun _ _ hmem => hmem)
  | accepted link frame line answer rest hlink hexchange hdown haccepts =>
    refine h.same rfl rfl rfl (fun _ hmem => Or.inl hmem) fun other answer hmem => ?_
    rw [acknowledged, onConnection_connections] at hmem
    by_cases hsame : other = link
    · rw [if_pos hsame] at hmem
      rw [hsame, hdown]
      exact List.mem_cons_of_mem _ hmem
    · rwa [if_neg hsame] at hmem

/-- Every step that keeps frames from being answered without their rows keeps the records. -/
theorem Recorded.step (h : Recorded world) {event : Event} (hkeeps : world.KeepsRows wire event) :
    Recorded (world.step wire event) := by
  cases event with
  | restart now io => exact h.same rfl rfl rfl (fun _ hmem => Or.inl hmem) (fun _ _ hmem => hmem)
  | enqueue now steady frame io => exact h.same rfl rfl rfl (fun _ hmem => Or.inl hmem) (fun _ _ hmem => hmem)
  | connect =>
    simp only [World.step]
    split
    · exact h.same rfl rfl rfl (fun _ hmem => Or.inl hmem) (fun _ _ hmem => hmem)
    · exact h
  | send choice now =>
    simp only [World.step, World.send]
    split
    case h_1 link frame hlink hexchange hframe =>
      refine h.same rfl rfl rfl (fun _ hmem => Or.inl hmem) fun other answer hmem => ?_
      rw [onConnection_connections] at hmem
      by_cases hsame : other = link
      · rw [if_pos hsame] at hmem
        rwa [hsame]
      · rwa [if_neg hsame] at hmem
    case h_2 => exact h
  | receive steady io => exact h.receive steady io
  | abort => exact h.same rfl rfl rfl (fun _ hmem => Or.inl hmem) (fun _ _ hmem => hmem)
  | lose link =>
    refine h.same rfl rfl rfl (fun _ hmem => Or.inl hmem) fun other answer hmem => ?_
    change answer ∈ ((world.onConnection link fun _ => Connection.mk [] []).connections other).downlink at hmem
    rw [onConnection_connections] at hmem
    by_cases hsame : other = link
    · rw [if_pos hsame] at hmem
      exact absurd hmem (by simp)
    · rwa [if_neg hsame] at hmem
  | accept =>
    simp only [World.step]
    split
    · exact h.same rfl rfl rfl (fun _ hmem => Or.inl hmem) (fun _ _ hmem => hmem)
    · exact h
  | close =>
    simp only [World.step]
    split
    case isTrue hhandling => exact h.drop (by rw [Ground.owed, hhandling]; rfl)
    case isFalse => exact h
  | read answers => exact h.read hkeeps
  | answer sends => exact h.answer hkeeps
  | persist => exact h.same rfl rfl rfl (fun _ hmem => Or.inr hmem) (fun _ _ hmem => hmem)
  | writeRow writes => exact h.writeRow hkeeps
  | groundRestart loads =>
    refine h.keep (fun key hkey => Or.inl (@backed_of_owed_none world.ground key hkeeps hkey)) (fun key hmem => ?_)
      (fun _ hmem => Or.inl hmem) (fun _ hmem => absurd hmem (by simp [World.step]))
      (fun _ _ hmem => Or.inl hmem)
    cases loads with
    | true => exact Or.inr (Or.inl (@backed_of_owed_none world.ground key hkeeps (h.cursor key hmem)))
    | false => exact absurd hmem (by simp [World.step])

/-- What a step leaves alone: rows stay, the queue takes at most one operation, and frames leave over
an acknowledgement in one kind of step. -/
structure Advances (world : World) (event : Event) (after : World) : Prop where
  rows : ∀ key ∈ world.ground.rows, key ∈ after.ground.rows
  queue : after.onboard.queue = world.onboard.queue ∨
    ∃ operation, after.onboard.queue = world.onboard.queue.step operation
  left : after.left = world.left ∨ ∃ steady io, event = .receive steady io

/-- A step that leaves the queue, the rows and the frames that left. -/
theorem Advances.same {event : Event} (hrows : after.ground.rows = world.ground.rows)
    (hqueue : after.onboard.queue = world.onboard.queue) (hleft : after.left = world.left) :
    Advances world event after :=
  ⟨fun _ hrow => hrows ▸ hrow, Or.inl hqueue, Or.inl hleft⟩

/-- Every step leaves these alone. -/
theorem step_advances (wire : Wire) (world : World) (event : Event) :
    Advances world event (world.step wire event) := by
  cases event with
  | restart now io => exact ⟨fun _ hrow => hrow, Or.inr ⟨.restart now io, rfl⟩, Or.inl rfl⟩
  | enqueue now steady frame io =>
    exact ⟨fun _ hrow => hrow, Or.inr ⟨.enqueue now steady frame io, rfl⟩, Or.inl rfl⟩
  | connect =>
    simp only [step]
    split <;> exact .same rfl rfl rfl
  | send choice now =>
    simp only [step, send]
    split <;> exact .same rfl rfl rfl
  | receive steady io =>
    have hcases := receive_cases world steady io
    simp only [step]
    generalize world.receive steady io = after at hcases ⊢
    cases hcases with
    | idle => exact .same rfl rfl rfl
    | rejected => exact .same rfl rfl rfl
    | accepted link frame line answer rest =>
      exact ⟨fun _ hrow => hrow, Or.inr ⟨.acknowledgeExact steady frame io, rfl⟩, Or.inr ⟨steady, io, rfl⟩⟩
  | abort => exact .same rfl rfl rfl
  | lose link => exact .same rfl rfl rfl
  | accept =>
    simp only [step]
    split <;> exact .same rfl rfl rfl
  | close =>
    simp only [step]
    split <;> exact .same rfl rfl rfl
  | read answers =>
    have hcases := read_cases wire world answers
    simp only [step]
    generalize world.read wire answers = after at hcases ⊢
    cases hcases <;> exact .same rfl rfl rfl
  | answer sends =>
    have hcases := answer_cases world sends
    simp only [step]
    generalize world.answer sends = after at hcases ⊢
    cases hcases <;> exact .same rfl rfl rfl
  | persist => exact .same rfl rfl rfl
  | writeRow writes =>
    simp only [step, writeRow]
    split
    · split
      · refine ⟨fun key hrow => ?_, Or.inl rfl, Or.inl rfl⟩
        change key ∈ (if _ then _ else world.ground.rows)
        split
        · exact List.mem_cons_of_mem _ hrow
        · exact hrow
      · exact .same rfl rfl rfl
    · exact .same rfl rfl rfl
  | groundRestart loads => exact .same rfl rfl rfl

/-- The index of the queue names pending frames. -/
def Indexed (world : World) : Prop :=
  world.onboard.queue.backlog.Arranged ∧ world.onboard.queue.backlog.KeySound

/-- Every step keeps the index. -/
theorem Indexed.step (h : Indexed world) (event : Event) : Indexed (world.step wire event) := by
  rcases (step_advances wire world event).queue with hsame | ⟨operation, hoperation⟩
  · rw [Indexed, hsame]
    exact h
  · rw [Indexed, hoperation]
    exact TelemetryQueue.step_keySound world.onboard.queue operation h

/-- A frame that an acknowledgement removes has the number and the text of the frame that was sent. -/
theorem mem_removedBy {backlog : Backlog} {frame pending : QueuedTelemetryFrame} (h : backlog.KeySound)
    (hmem : pending ∈ removedBy backlog frame) : pending.key = frame.key ∧ pending.frame = frame.frame := by
  unfold removedBy at hmem
  split at hmem
  · exact absurd hmem (by simp)
  case h_2 index hposition =>
    obtain ⟨found, hfind, hkey, htext⟩ := h.exactPosition hposition
    rw [hfind] at hmem
    rw [List.mem_singleton.mp hmem]
    exact ⟨hkey, htext⟩

/-- The answer that is taken up answers the frame that was sent. -/
theorem InStep.answer_line (h : InStep world) {link : ℕ} {frame : QueuedTelemetryFrame} {line : List Char}
    {answer : Answer} {rest : List Answer} (hlink : world.onboard.link = some link)
    (hexchange : world.onboard.exchange = some (frame, line))
    (hdown : (world.connections link).downlink = answer :: rest) : answer.line = line := by
  have hmem : answer.line ∈ world.outstanding link := by
    rw [outstanding, hdown]
    simp
  rcases h.exchange link hlink with hnone | ⟨sent, sentLine, hsent, hone⟩
  · rw [hnone] at hmem
    exact absurd hmem (by simp)
  · rw [hexchange] at hsent
    obtain ⟨-, rfl⟩ := Prod.mk.inj (Option.some.inj hsent)
    rw [hone] at hmem
    exact List.mem_singleton.mp hmem

/-- A telemetry frame whose acknowledgement is taken up has its row, if none is owed under its number. -/
theorem accepted_row (hstep : InStep world) (hrecorded : Recorded world) {link : ℕ}
    {frame : QueuedTelemetryFrame} {line : List Char} {answer : Answer} {rest : List Answer}
    (hlink : world.onboard.link = some link) (hexchange : world.onboard.exchange = some (frame, line))
    (hdown : (world.connections link).downlink = answer :: rest) (haccepts : accepts frame line answer.ack = true)
    (howed : world.ground.owed ≠ some (frameKey frame)) (hdata : isDataLine frame.frame = true) :
    frameKey frame ∈ world.ground.rows := by
  have hline := hstep.answer_line hlink hexchange hdown
  have htrimmed : isDataLine (trim isSpace answer.line) = true := by
    rw [hline]
    exact hstep.tagged _ hexchange hdata
  have hack : answer.ack = frameKey frame := by
    have hevent : frame.isEventFrame = false := isDataLine_not_event hdata
    have hpair := (Bool.and_eq_true _ _).mp haccepts
    rw [of_decide_eq_true hpair.2, expectedSeq, hevent]
    rfl
  have hmem : answer ∈ (world.connections link).downlink := by
    rw [hdown]
    exact List.mem_cons_self
  rcases hrecorded.answers link answer hmem htrimmed with hrow | hheld
  · rwa [hack] at hrow
  · rw [hack] at hheld
    exact absurd hheld howed

/-- Every step that keeps frames from being answered without their rows leaves every frame that was
acknowledged with its row. -/
theorem Delivered.step (h : Delivered world) (hstep : InStep world) (hrecorded : Recorded world)
    (hindexed : Indexed world) {event : Event} (hkeeps : world.KeepsRows wire event) :
    Delivered (world.step wire event) := by
  have hadvances := step_advances wire world event
  intro pending hmem hdata
  by_cases hold : pending ∈ world.left
  · exact hadvances.rows _ (h pending hold hdata)
  · rcases hadvances.left with hsame | ⟨steady, io, rfl⟩
    · exact absurd (hsame ▸ hmem) hold
    · refine hadvances.rows _ ?_
      have hcases := receive_cases world steady io
      change pending ∈ (world.receive steady io).left at hmem
      generalize world.receive steady io = after at hcases hmem
      cases hcases with
      | idle => exact absurd hmem hold
      | rejected => exact absurd hmem hold
      | accepted link frame line answer rest hlink hexchange hdown haccepts =>
        rcases List.mem_append.mp hmem with hbefore | hremoved
        · exact absurd hbefore hold
        · obtain ⟨hkey, htext⟩ := mem_removedBy hindexed.2 hremoved
          obtain ⟨hsession, hseq⟩ := Prod.mk.inj hkey
          have hsame : frameKey pending = frameKey frame := by rw [frameKey, hsession, hseq, frameKey]
          rw [hsame]
          exact accepted_row hstep hrecorded hlink hexchange hdown haccepts (hkeeps _ hexchange) (htext ▸ hdata)

/-- The system at rest meets every invariant. -/
theorem new_inv (config : QueueConfig) (file : Option (List Char)) :
    InStep (new config file) ∧ Recorded (new config file) ∧ Indexed (new config file) ∧
      Delivered (new config file) := by
  refine ⟨⟨?_, ?_, ?_, ?_, le_refl _, ?_, fun _ _ => rfl⟩, ⟨?_, ?_, ?_, ?_⟩,
    ⟨Backlog.empty_arranged, fun _ _ hlookup => absurd hlookup (by simp [new, TelemetryQueue.new, Backlog.empty])⟩,
    fun _ hmem => absurd hmem (by simp [new])⟩ <;> simp [new]

/-- In every run whose steps keep frames from being answered without their rows, every telemetry
frame that left the queue over an acknowledgement has its row, in every state. -/
theorem delivered_of_keepsRows {config : QueueConfig} {file : Option (List Char)} {events : List Event}
    (h : Meets (step wire) (KeepsRows wire) (new config file) events) :
    Holds (step wire) Delivered (new config file) events :=
  @holds_of_meets _ _ (step wire) (KeepsRows wire)
    (fun world => InStep world ∧ Recorded world ∧ Indexed world ∧ Delivered world) Delivered
    (fun _ event hkept hkeeps =>
      ⟨hkept.1.step event, hkept.2.1.step hkeeps, hkept.2.2.1.step event,
        hkept.2.2.2.step hkept.1 hkept.2.1 hkept.2.2.1 hkeeps⟩)
    (fun _ hkept => hkept.2.2.2) _ events (new_inv config file) h

/-- Whether a step keeps frames from being answered without their rows can be told. -/
instance (wire : Wire) (world : World) : (event : Event) → Decidable (world.KeepsRows wire event)
  | .receive _ _ => inferInstanceAs (Decidable (∀ exchange ∈ world.onboard.exchange, _ ≠ _))
  | .read _ => inferInstanceAs (Decidable (∀ line ∈ world.nextLine, _ → _))
  | .answer sends => inferInstanceAs (Decidable (sends = true ∨ world.ground.owed = none))
  | .writeRow writes => inferInstanceAs (Decidable (writes = true ∨ world.ground.owed = none))
  | .groundRestart _ => inferInstanceAs (Decidable (world.ground.owed = none))
  | .restart _ _ => inferInstanceAs (Decidable True)
  | .enqueue _ _ _ _ => inferInstanceAs (Decidable True)
  | .connect => inferInstanceAs (Decidable True)
  | .send _ _ => inferInstanceAs (Decidable True)
  | .abort => inferInstanceAs (Decidable True)
  | .lose _ => inferInstanceAs (Decidable True)
  | .accept => inferInstanceAs (Decidable True)
  | .close => inferInstanceAs (Decidable True)
  | .persist => inferInstanceAs (Decidable True)

/-- Parsers that read the session and the number where the columns have them. -/
def columnWire : Wire where
  parseTelemetryCsv line :=
    match getlines ',' line with
    | kind :: session :: seq :: rest =>
      if kind = "DATA".toList ∧ 8 ≤ rest.length then (wholeNat seq).map fun number => (session, number) else none
    | _ => none
  parseEvent line :=
    match getlines ',' line with
    | _ :: _ :: session :: _ => some session
    | _ => none

/-- A telemetry frame with one sample. -/
def columnFrame : QueuedTelemetryFrame :=
  TelemetryQueue.sampleFrame 7
    "DATA,s1,7,1970-01-01T00:16:40Z,1,21.50,1013.20,0.10,20.00,HEATER_DUTY=0.00,PHASE=GROUND,STATUS=OK"

/-- A frame is queued, sent, marked, answered and written, and its answer is taken up. -/
def deliveredRun : List Event :=
  [.enqueue 1000 1 columnFrame .fine, .connect, .accept, .send (.live 0) 1001, .read true, .answer true,
    .persist, .writeRow true, .receive 2 .fine]

/-- The sample run keeps frames from being answered without their rows. -/
theorem delivered_of_keepsRows_deliveredRun :
    Holds (step columnWire) Delivered (new TelemetryQueue.sampleConfig none) deliveredRun :=
  delivered_of_keepsRows (by decide +kernel)

/-- The answer to a frame fails after the frame was marked. It is sent again over a new connection
and answered as a duplicate. -/
def unwrittenRun : List Event :=
  [.enqueue 1000 1 columnFrame .fine, .connect, .accept, .send (.live 0) 1001, .read true, .answer false,
    .abort, .connect, .accept, .send .replay 1002, .read true, .answer true, .writeRow true, .receive 2 .fine]

/-- The frame has left the queue and has no row. -/
theorem unwrittenRun_not_delivered :
    ¬ Holds (step columnWire) Delivered (new TelemetryQueue.sampleConfig none) unwrittenRun := by
  intro h
  have hleft : columnFrame ∈ (run (step columnWire) (new TelemetryQueue.sampleConfig none) unwrittenRun).left := by
    decide +kernel
  have hrow := h.last columnFrame hleft (by decide +kernel)
  have hrows : (run (step columnWire) (new TelemetryQueue.sampleConfig none) unwrittenRun).ground.rows = [] := by
    decide +kernel
  rw [hrows] at hrow
  exact absurd hrow (by simp)

end World

end Coatheal.Delivery
