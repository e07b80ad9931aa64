import Coatheal.Library.Run

/-!
# Radio silence

The beacon thread and the discovery listener ask under the client's lock whether
they may transmit and send outside it; the control loop sends its frames under
the lock, but waits for the budget without it. The command thread switches the
transmitter, then the flag file, then answers. What is sent between the answer
to RADIO_SILENCE and RADIO_RESUME is kept, for the statements only.
-/

namespace Coatheal.Link

open Coatheal.Library

/-- What the onboard sends of its own accord. -/
inductive Transmission where
  | beacon
  | helloReply
  | frame
deriving DecidableEq, Repr

/-- The two commands that switch the transmitter. -/
inductive RadioCommand where
  | silence
  | resume
deriving DecidableEq, Repr

/-- How far the command thread is with a command. -/
inductive CommandThread where
  | idle
  | switching (command : RadioCommand)
  | persisting (command : RadioCommand)
  | answering (command : RadioCommand)
deriving DecidableEq, Repr

/-- A connection: its socket, and whether it takes compressed frames. -/
structure Socket where
  fd : ℕ
  codecZ1 : Bool
deriving DecidableEq, Repr

/-- How an attempt to connect ends. -/
inductive Connecting where
  | backoff
  | noRoom
  | failed
  | connected (socket : Socket)
deriving DecidableEq, Repr

/-- What a frame meets on its way: a pending failover, the attempt to connect if there is no
connection, a budget that is set and large enough, and an answer to the frame. -/
structure FrameAttempt where
  failover : Bool
  connecting : Connecting
  budgeted : Bool
  fits : Bool
  answered : Bool
deriving DecidableEq, Repr

/-- How sending a frame ends. -/
inductive SendStatus where
  | sent
  | silent
  | noBudget
  | notConnected
  | failed
deriving DecidableEq, Repr

/-- The telemetry client with its threads, the flag file, and whether silence is in force for the
operator. The beacon thread and the listener are cleared from their check to their send; a frame
waits for the budget with the socket it is meant for. -/
structure Radio where
  transmitEnabled : Bool
  connection : Option Socket
  beaconCleared : Bool
  helloCleared : Bool
  waiting : Option Socket
  command : CommandThread
  flag : Bool
  silent : Bool
  sentInSilence : List Transmission
deriving DecidableEq

/-- A step of one of the threads: a section under the lock, a send, a write to the disk, an answer, or
the process starting anew. -/
inductive RadioEvent where
  | checkBeacon
  | sendBeacon (room : Bool)
  | hearHello
  | sendHelloReply (room : Bool)
  | beginFrame (attempt : FrameAttempt)
  | finishFrame (admitted answered : Bool)
  | retarget
  | receive (command : RadioCommand)
  | proceed (stored : Bool)
  | restart
deriving DecidableEq

namespace Radio

/-- The process starts; it is silent when it finds the flag. -/
def start (flag silent : Bool) (sentInSilence : List Transmission) : Radio where
  transmitEnabled := !flag
  connection := none
  beaconCleared := false
  helloCleared := false
  waiting := none
  command := .idle
  flag := flag
  silent := silent
  sentInSilence := sentInSilence

/-- The process starts for the first time. -/
def new : Radio := start false false []

/-- Something leaves the onboard. -/
def emit (r : Radio) (transmission : Transmission) : Radio :=
  { r with
    sentInSilence := if r.silent then r.sentInSilence ++ [transmission] else r.sentInSilence }

/-- The connection is reset. -/
def abort (r : Radio) : Radio := { r with connection := none }

/-- A beacon may be sent. -/
def beaconAllowed (r : Radio) : Bool := r.transmitEnabled && r.connection.isNone

/-- A hello may be answered. -/
def helloReplyAllowed (r : Radio) : Bool := r.transmitEnabled && r.connection.isNone

/-- `SendOnboardBeacon`, when the budget has room for it. -/
def sendOnboardBeacon (r : Radio) (room : Bool) : Radio := if room then r.emit .beacon else r

/-- `SendOnboardHelloReply`, when the budget has room for it. -/
def sendOnboardHelloReply (r : Radio) (room : Bool) : Radio :=
  if room then r.emit .helloReply else r

/-- The frame is written, and the connection reset unless it is answered. -/
def exchange (r : Radio) (answered : Bool) : Radio × SendStatus :=
  let r := r.emit .frame
  if answered then (r, .sent) else (r.abort, .failed)

/-- `SendFrame` up to the wait for the budget; the status when there is nothing to wait for. -/
def beginFrame (r : Radio) (attempt : FrameAttempt) : Radio × Option SendStatus :=
  if r.transmitEnabled = false then (r.abort, some .silent)
  else
    let r := if attempt.failover then r.abort else r
    let connecting : Connecting := match r.connection with
      | some socket => .connected socket
      | none => attempt.connecting
    match connecting with
    | .backoff => (r, some .notConnected)
    | .noRoom => (r, some .noBudget)
    | .failed => (r, some .notConnected)
    | .connected socket =>
      let r := { r with connection := some socket }
      if attempt.budgeted = false then
        let (r, status) := r.exchange attempt.answered
        (r, some status)
      else if attempt.fits then ({ r with waiting := some socket }, none)
      else (r.abort, some .failed)

/-- `SendFrame` after the wait: the frame goes only over the connection it waited for. -/
def finishFrame (r : Radio) (socket : Socket) (admitted answered : Bool) : Radio × SendStatus :=
  let r := { r with waiting := none }
  if admitted = false then (r, .noBudget)
  else if r.connection ≠ some socket ∨ r.transmitEnabled = false then
    (r, if r.transmitEnabled then .notConnected else .silent)
  else r.exchange answered

/-- Switch the transmitter. -/
def setTransmitEnabled (r : Radio) (enabled : Bool) : Radio :=
  let r := { r with transmitEnabled := enabled }
  if enabled then r else r.abort

/-- Write or remove the flag file, which may fail without notice. -/
def persistRadioSilence (r : Radio) (silence stored : Bool) : Radio :=
  if stored then { r with flag := silence } else r

/-- The command thread goes one step on with its command. -/
def proceed (r : Radio) (stored : Bool) : Radio :=
  match r.command with
  | .idle => r
  | .switching command =>
    { r.setTransmitEnabled (decide (command = .resume)) with command := .persisting command }
  | .persisting command =>
    { r.persistRadioSilence (decide (command = .silence)) stored with command := .answering command }
  | .answering .silence => { r with command := .idle, silent := true }
  | .answering .resume => { r with command := .idle }

/-- One step. A step of a thread that is elsewhere does nothing. -/
def step (r : Radio) : RadioEvent → Radio
  | .checkBeacon => if r.beaconCleared then r else { r with beaconCleared := r.beaconAllowed }
  | .sendBeacon room =>
    if r.beaconCleared then { r.sendOnboardBeacon room with beaconCleared := false } else r
  | .hearHello => if r.helloCleared then r else { r with helloCleared := r.helloReplyAllowed }
  | .sendHelloReply room =>
    if r.helloCleared then { r.sendOnboardHelloReply room with helloCleared := false } else r
  | .beginFrame attempt =>
    match r.waiting with
    | none => (r.beginFrame attempt).1
    | some _ => r
  | .finishFrame admitted answered =>
    match r.waiting with
    | none => r
    | some socket => (r.finishFrame socket admitted answered).1
  | .retarget => r.abort
  | .receive command =>
    match r.command with
    | .idle =>
      { r with command := .switching command, silent := r.silent && decide (command ≠ .resume) }
    | _ => r
  | .proceed stored => r.proceed stored
  | .restart => start r.flag r.silent r.sentInSilence

/-- Nothing has been sent while silence was in force. -/
def Silent (r : Radio) : Prop := r.sentInSilence = []

/-- RADIO_SILENCE is answered only when no thread stands between its check and its send, and the flag
file is there. -/
def AnswersQuietly (r : Radio) : RadioEvent → Prop
  | .proceed _ =>
    r.command = .answering .silence →
      r.beaconCleared = false ∧ r.helloCleared = false ∧ r.flag = true
  | _ => True

/-- Whether an answer is quiet can be checked. -/
instance (r : Radio) : (event : RadioEvent) → Decidable (r.AnswersQuietly event)
  | .proceed _ => inferInstanceAs (Decidable (r.command = .answering .silence →
      r.beaconCleared = false ∧ r.helloCleared = false ∧ r.flag = true))
  | .checkBeacon | .sendBeacon _ | .hearHello | .sendHelloReply _ | .beginFrame _ | .finishFrame _ _
  | .retarget | .receive _ | .restart => inferInstanceAs (Decidable True)

/-- The command thread is about to resume. -/
def resuming (r : Radio) : Prop :=
  r.command = .switching .resume ∨ r.command = .persisting .resume ∨ r.command = .answering .resume

/-- The invariant: in silence the transmitter is off, the flag is on the disk and no thread is
cleared; a command that has switched the transmitter off has left it off. -/
structure Inv (r : Radio) : Prop where
  off : r.silent = true → r.transmitEnabled = false ∧ r.flag = true
  held : r.silent = true → r.beaconCleared = false ∧ r.helloCleared = false
  switched : r.command = .persisting .silence ∨ r.command = .answering .silence →
    r.transmitEnabled = false
  quiet : ¬ r.resuming ∨ r.silent = false
  nothing : r.sentInSilence = []

/-- The first start of the process is in the invariant. -/
theorem inv_new : Inv new where
  off h := absurd h Bool.false_ne_true
  held h := absurd h Bool.false_ne_true
  switched := by rintro (h | h) <;> cases h
  quiet := Or.inr rfl
  nothing := rfl

/-- Outside silence nothing is kept. -/
theorem emit_of_not_silent {r : Radio} (h : r.silent = false) (transmission : Transmission) :
    r.emit transmission = r := by
  unfold emit
  rw [if_neg (by simp [h])]

/-- Losing the connection and waiting for the budget do not matter for silence. -/
theorem Inv.socket {r : Radio} (hr : r.Inv) (connection waiting : Option Socket) :
    Inv { r with connection := connection, waiting := waiting } :=
  ⟨hr.off, hr.held, hr.switched, hr.quiet, hr.nothing⟩

/-- With the transmitter on there is no silence. -/
theorem Inv.not_silent {r : Radio} (hr : r.Inv) (h : r.transmitEnabled = true) :
    r.silent = false := by
  by_contra hsilent
  rw [(hr.off (by simpa using hsilent)).1] at h
  cases h

/-- A frame that is written with the transmitter on keeps the invariant. -/
theorem Inv.exchange {r : Radio} (hr : r.Inv) (h : r.transmitEnabled = true) (answered : Bool) :
    (r.exchange answered).1.Inv := by
  unfold Radio.exchange
  rw [emit_of_not_silent (hr.not_silent h)]
  cases answered with
  | true => exact hr
  | false => exact hr.socket none r.waiting

/-- A frame up to the wait keeps the invariant: it is written only with the transmitter on. -/
theorem Inv.beginFrame {r : Radio} (hr : r.Inv) (attempt : FrameAttempt) :
    (r.beginFrame attempt).1.Inv := by
  have hfailover : (if attempt.failover then r.abort else r).Inv := by
    split
    · exact hr.socket none r.waiting
    · exact hr
  have hkept : (if attempt.failover then r.abort else r).transmitEnabled = r.transmitEnabled := by
    split <;> rfl
  unfold Radio.beginFrame
  split
  · exact hr.socket none r.waiting
  · rename_i henabled
    have hon : (if attempt.failover then r.abort else r).transmitEnabled = true := by
      rw [hkept]
      simpa using henabled
    generalize (if attempt.failover then r.abort else r) = next at hfailover hon
    dsimp only
    cases hconnecting : (match next.connection with
      | some socket => Connecting.connected socket
      | none => attempt.connecting) with
    | backoff => exact hfailover
    | noRoom => exact hfailover
    | failed => exact hfailover
    | connected socket =>
      have hconnected := hfailover.socket (some socket) next.waiting
      dsimp only
      split
      · exact hconnected.exchange hon attempt.answered
      split
      · exact hfailover.socket (some socket) (some socket)
      · exact hfailover.socket none next.waiting

/-- A frame after the wait keeps the invariant: the transmitter is looked at again. -/
theorem Inv.finishFrame {r : Radio} (hr : r.Inv) (socket : Socket) (admitted answered : Bool) :
    (r.finishFrame socket admitted answered).1.Inv := by
  have hdone := hr.socket r.connection none
  unfold Radio.finishFrame
  dsimp only
  split
  · exact hdone
  split
  · exact hdone
  · rename_i hlink
    have hon : r.transmitEnabled = true := by
      by_contra hoff
      exact hlink (Or.inr (by simpa using hoff))
    exact hdone.exchange hon answered

/-- A thread that was cleared sends outside silence only. -/
theorem Inv.cleared {r : Radio} (hr : r.Inv) (h : r.beaconCleared = true ∨ r.helloCleared = true) :
    r.silent = false := by
  by_contra hsilent
  obtain ⟨hbeacon, hhello⟩ := hr.held (by simpa using hsilent)
  rcases h with h | h
  · rw [hbeacon] at h
    cases h
  · rw [hhello] at h
    cases h

/-- A command that comes in keeps the invariant. -/
theorem Inv.receive {r : Radio} (hr : r.Inv) (command : RadioCommand) :
    Inv { r with
      command := .switching command, silent := r.silent && decide (command ≠ .resume) } := by
  have hsilent (h : (r.silent && decide (command ≠ .resume)) = true) : r.silent = true :=
    (Bool.and_eq_true_iff.mp h).1
  refine ⟨fun h => hr.off (hsilent h), fun h => hr.held (hsilent h), ?_, ?_, hr.nothing⟩
  · rintro (h | h) <;> cases h
  · cases command with
    | silence =>
      refine Or.inl ?_
      rintro (h | h | h) <;> cases h
    | resume => exact Or.inr (by simp)

/-- The command thread keeps the invariant, if it answers quietly. -/
theorem Inv.proceed {r : Radio} (hr : r.Inv) (stored : Bool)
    (hok : r.AnswersQuietly (.proceed stored)) : (r.proceed stored).Inv := by
  unfold Radio.proceed
  cases hcommand : r.command with
  | idle => exact hr
  | switching command =>
    cases command with
    | silence =>
      refine ⟨fun h => ⟨rfl, (hr.off h).2⟩, hr.held, fun _ => rfl, Or.inl ?_, hr.nothing⟩
      rintro (h | h | h) <;> cases h
    | resume =>
      have hsilent : r.silent = false := hr.quiet.resolve_left (not_not_intro (Or.inl hcommand))
      refine ⟨fun h => ?_, hr.held, ?_, Or.inr hsilent, hr.nothing⟩
      · change r.silent = true at h
        rw [hsilent] at h
        cases h
      · rintro (h | h) <;> cases h
  | persisting command =>
    cases command with
    | silence =>
      have hoff := hr.switched (Or.inl hcommand)
      cases stored with
      | true =>
        refine ⟨fun _ => ⟨hoff, rfl⟩, hr.held, fun _ => hoff, Or.inl ?_, hr.nothing⟩
        rintro (h | h | h) <;> cases h
      | false =>
        refine ⟨hr.off, hr.held, fun _ => hoff, Or.inl ?_, hr.nothing⟩
        rintro (h | h | h) <;> cases h
    | resume =>
      have hsilent : r.silent = false :=
        hr.quiet.resolve_left (not_not_intro (Or.inr (Or.inl hcommand)))
      have hnever (h : r.silent = true) : False := by
        rw [hsilent] at h
        cases h
      cases stored with
      | true =>
        refine ⟨fun h => (hnever h).elim, hr.held, ?_, Or.inr hsilent, hr.nothing⟩
        rintro (h | h) <;> cases h
      | false =>
        refine ⟨fun h => (hnever h).elim, hr.held, ?_, Or.inr hsilent, hr.nothing⟩
        rintro (h | h) <;> cases h
  | answering command =>
    cases command with
    | silence =>
      obtain ⟨hbeacon, hhello, hflag⟩ := hok hcommand
      have hoff := hr.switched (Or.inr hcommand)
      refine ⟨fun _ => ⟨hoff, hflag⟩, fun _ => ⟨hbeacon, hhello⟩, ?_, Or.inl ?_, hr.nothing⟩
      · rintro (h | h) <;> cases h
      · rintro (h | h | h) <;> cases h
    | resume =>
      refine ⟨hr.off, hr.held, ?_, Or.inl ?_, hr.nothing⟩
      · rintro (h | h) <;> cases h
      · rintro (h | h | h) <;> cases h

/-- A process that starts in silence finds the flag. -/
theorem Inv.restart {r : Radio} (hr : r.Inv) : Inv (start r.flag r.silent r.sentInSilence) := by
  refine ⟨fun h => ?_, fun _ => ⟨rfl, rfl⟩, ?_, Or.inl ?_, hr.nothing⟩
  · have hflag := (hr.off h).2
    exact ⟨by simp [start, hflag], hflag⟩
  · rintro (h | h) <;> cases h
  · rintro (h | h | h) <;> cases h

/-- Every step keeps the invariant, if RADIO_SILENCE is answered quietly. -/
theorem inv_step (r : Radio) (event : RadioEvent) (hr : r.Inv) (hok : r.AnswersQuietly event) :
    (r.step event).Inv := by
  have hchecked (allowed : Bool) (h : allowed = true → r.transmitEnabled = true) :
      r.silent = true → allowed = false := by
    intro hsilent
    by_contra hallowed
    have hon := h (by simpa using hallowed)
    rw [(hr.off hsilent).1] at hon
    cases hon
  cases event with
  | checkBeacon =>
    simp only [step]
    split
    · exact hr
    · refine ⟨hr.off, fun hsilent => ⟨?_, (hr.held hsilent).2⟩, hr.switched, hr.quiet, hr.nothing⟩
      exact hchecked r.beaconAllowed (fun h => (Bool.and_eq_true_iff.mp h).1) hsilent
  | sendBeacon room =>
    simp only [step]
    split
    · rename_i hcleared
      have hsame : r.sendOnboardBeacon room = r := by
        unfold sendOnboardBeacon
        rw [emit_of_not_silent (hr.cleared (Or.inl hcleared))]
        split <;> rfl
      rw [hsame]
      exact ⟨hr.off, fun h => ⟨rfl, (hr.held h).2⟩, hr.switched, hr.quiet, hr.nothing⟩
    · exact hr
  | hearHello =>
    simp only [step]
    split
    · exact hr
    · refine ⟨hr.off, fun hsilent => ⟨(hr.held hsilent).1, ?_⟩, hr.switched, hr.quiet, hr.nothing⟩
      exact hchecked r.helloReplyAllowed (fun h => (Bool.and_eq_true_iff.mp h).1) hsilent
  | sendHelloReply room =>
    simp only [step]
    split
    · rename_i hcleared
      have hsame : r.sendOnboardHelloReply room = r := by
        unfold sendOnboardHelloReply
        rw [emit_of_not_silent (hr.cleared (Or.inr hcleared))]
        split <;> rfl
      rw [hsame]
      exact ⟨hr.off, fun h => ⟨(hr.held h).1, rfl⟩, hr.switched, hr.quiet, hr.nothing⟩
    · exact hr
  | beginFrame attempt =>
    simp only [step]
    split
    · exact hr.beginFrame attempt
    · exact hr
  | finishFrame admitted answered =>
    simp only [step]
    split
    · exact hr
    · exact hr.finishFrame _ admitted answered
  | retarget => exact hr.socket none r.waiting
  | receive command =>
    simp only [step]
    split
    · exact hr.receive command
    · exact hr
  | proceed stored => exact hr.proceed stored hok
  | restart => exact hr.restart

/-- In every run in which RADIO_SILENCE is answered only with no thread between its check and its send
and with the flag file on the disk, nothing is sent in silence. -/
theorem silent_of_answersQuietly (events : List RadioEvent) (h : Meets step AnswersQuietly new events) :
    Holds step Silent new events :=
  holds_of_meets inv_step (fun _ hr => hr.nothing) inv_new h

/-- RADIO_SILENCE and a restart, with every thread trying to transmit, and then RADIO_RESUME. -/
def silencedRestart : List RadioEvent :=
  [.checkBeacon, .sendBeacon true, .beginFrame ⟨false, .connected ⟨7, true⟩, true, true, true⟩,
    .receive .silence, .proceed true, .finishFrame true true, .proceed true, .proceed true, .checkBeacon,
    .sendBeacon true, .hearHello, .sendHelloReply true, .restart, .checkBeacon, .sendBeacon true,
    .beginFrame ⟨false, .connected ⟨7, true⟩, false, true, true⟩, .receive .resume, .proceed true,
    .beginFrame ⟨false, .connected ⟨7, true⟩, false, true, true⟩, .proceed true, .proceed true]

/-- Nothing is sent in silence there. -/
theorem silent_silencedRestart : Holds step Silent new silencedRestart :=
  silent_of_answersQuietly silencedRestart (by decide)

/-- The beacon thread is cleared, RADIO_SILENCE is carried out and answered, and the beacon goes out. -/
def beaconAfterAnswer : List RadioEvent :=
  [.checkBeacon, .receive .silence, .proceed true, .proceed true, .proceed true, .sendBeacon true]

/-- The beacon is sent in silence. -/
theorem beaconAfterAnswer_not_silent : ¬ Holds step Silent new beaconAfterAnswer := by
  intro h
  have hsent : (run step new beaconAfterAnswer).sentInSilence = [.beacon] := by decide
  have hnone := h.last
  rw [Silent, hsent] at hnone
  cases hnone

/-- The condition leaves out nothing that could go well: after an answer that is not quiet something
can be sent in silence, and no command has to come in between. -/
theorem sends_of_not_answersQuietly {r : Radio} {stored : Bool}
    (h : ¬ r.AnswersQuietly (.proceed stored)) :
    ∃ events : List RadioEvent, (∀ command, .receive command ∉ events) ∧
      ¬ Silent (run step r (.proceed stored :: events)) := by
  obtain ⟨hcommand, hopen⟩ := Classical.not_imp.mp h
  have hanswered : r.step (.proceed stored) = { r with command := .idle, silent := true } := by
    simp only [step, Radio.proceed, hcommand]
  by_cases hbeacon : r.beaconCleared = true
  · refine ⟨[.sendBeacon true], by simp, ?_⟩
    rw [run_cons, hanswered]
    simp [step, hbeacon, sendOnboardBeacon, emit, Silent]
  by_cases hhello : r.helloCleared = true
  · refine ⟨[.sendHelloReply true], by simp, ?_⟩
    rw [run_cons, hanswered]
    simp [step, hhello, sendOnboardHelloReply, emit, Silent]
  -- No thread is cleared, so the flag is missing and the next process transmits.
  · have hflag : r.flag = false := by
      by_contra hflag
      exact hopen ⟨by simpa using hbeacon, by simpa using hhello, by simpa using hflag⟩
    refine ⟨[.restart, .beginFrame ⟨false, .connected ⟨0, false⟩, false, false, true⟩], by simp, ?_⟩
    rw [run_cons, hanswered]
    simp [step, start, hflag, Radio.beginFrame, Radio.exchange, emit, Silent]

/-- A beacon that was cleared before the answer. -/
theorem sends_of_not_answersQuietly_beacon :
    ∃ events : List RadioEvent, (∀ command, .receive command ∉ events) ∧
      ¬ Silent (run step (run step new [.checkBeacon, .receive .silence, .proceed true, .proceed true])
        (.proceed true :: events)) :=
  sends_of_not_answersQuietly (by decide)

end Radio

end Coatheal.Link
