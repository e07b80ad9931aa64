import Coatheal.Library.PyText
import Coatheal.Library.Run

/-!
# Radio silence on the ground

The dispatcher looks at its flag when a command is submitted, the beacon thread
when a check begins and the probe thread when a round begins; the packet leaves
later, after a wait for a pool thread or the link budget or in the middle of a
loop. What leaves is kept with the flag of its sender at that moment. Silence is
kept in every run that switches it on while nothing is under way.
-/

namespace Coatheal.Ground

open Coatheal.Library Coatheal.Library.PyText

/-- Upper case where it is made of ASCII letters; other characters stay. -/
def upperAscii (c : Char) : List Char :=
  match c with
  | 'ı' => ['I']
  | 'ſ' => ['S']
  | 'ß' => ['S', 'S']
  | 'ﬀ' => ['F', 'F']
  | 'ﬁ' => ['F', 'I']
  | 'ﬂ' => ['F', 'L']
  | 'ﬃ' => ['F', 'F', 'I']
  | 'ﬄ' => ['F', 'F', 'L']
  | 'ﬅ' | 'ﬆ' => ['S', 'T']
  | _ => [c.toUpper]

/-- The first word of a command in upper case. -/
def commandVerb (command : List Char) : List Char :=
  ((strip command).takeWhile fun c => !isSpace c).flatMap upperAscii

/-- The commands that are sent while the onboard is in radio silence. -/
def silenceWhitelist : List (List Char) :=
  ["RADIO_RESUME".toList, "RADIO_SILENCE".toList, "STATUS".toList, "PING".toList]

/-- A command may be sent in radio silence. -/
def whitelisted (command : List Char) : Bool := silenceWhitelist.contains (commandVerb command)

/-- The longest request line, with its newline, whose exchange fits the share. -/
def maxRequestBytes : ℕ := 230

/-- The request line is too long for the link budget. -/
def requestTooLong (command : List Char) : Bool :=
  decide (maxRequestBytes < ((strip command).map Char.utf8Size).sum + 1)

/-- A command on its way: the tag of its sender and whether it is a background poll. -/
structure SendJob where
  command : List Char
  tag : ℕ
  quiet : Bool
deriving DecidableEq

/-- What the dispatcher reads off a reply: whether it is an acknowledgement, and the silence flag of its
body. -/
structure Reply where
  ok : Bool
  silence : Option String
deriving DecidableEq

/-- The dispatcher with its jobs: those that wait for a pool thread, those that wait for the link budget,
and those that come back, with whether they went over the link. -/
structure CommandDispatcher where
  silence : Bool
  quietPending : List (List Char × ℕ)
  queued : List SendJob
  holding : List SendJob
  returning : List (SendJob × Bool)
deriving DecidableEq

/-- A discovery datagram and where it goes. -/
structure Datagram where
  line : String
  address : String
deriving DecidableEq

/-- How far the beacon thread is with a check: about to look whether a round is due, or sending, with
the datagrams still to go and those the budget had no room for. -/
inductive BeaconThread where
  | sleeping
  | checked
  | sending (pending still : List Datagram)
deriving DecidableEq

/-- The beacon with its rounds. Times are monotonic seconds. -/
structure GsBeacon where
  telPort : ℕ
  cmdPort : ℕ
  priority : ℕ
  intervalS : ℚ
  healthyIntervalS : ℚ
  quiet : Bool
  healthy : Bool
  lastRound : Option ℚ
  roundHealthy : Option Bool
  pending : List Datagram
  thread : BeaconThread
deriving DecidableEq

/-- How far the probe thread is: asleep, about to ask the budget for the next host, or connected to it. -/
inductive ProbeThread where
  | sleeping
  | probing
  | asking
deriving DecidableEq

/-- The command probe with the hosts it has still to try. -/
structure CommandProbe where
  hosts : List String
  quiet : Bool
  healthy : Bool
  round : Option (List String)
  thread : ProbeThread
deriving DecidableEq

/-- What the window still has to tell the workers about a switch. -/
inductive SilenceChange where
  | none
  | tellBeacon (active : Bool)
  | tellProbe (active : Bool)
deriving DecidableEq

/-- What leaves the ground station of its own accord. -/
inductive Departure where
  | exchange (command : List Char)
  | datagram (datagram : Datagram)
  | probe (host : String)
deriving DecidableEq

/-- The senders of the ground station, and what has left with the flag of its sender at that moment. -/
structure Station where
  dispatcher : CommandDispatcher
  beacon : GsBeacon
  probe : CommandProbe
  change : SilenceChange
  departed : List (Departure × Bool)
deriving DecidableEq

/-- A step of one of the threads. Clock readings, the room of the budget and what comes back are from
outside. -/
inductive StationEvent where
  | send (command : List Char) (tag : ℕ) (quiet : Bool)
  | setSilence (active : Bool)
  | tellWorker
  | startJob (index : ℕ)
  | hold (index : ℕ) (granted : Bool)
  | response (index : ℕ) (reply : Reply)
  | setLinkHealthy (healthy : Bool)
  | checkBeacon
  | beginRound (now : ℚ) (nonce : ℕ) (targets : List String)
  | sendDatagram (admitted : Bool)
  | checkProbe
  | probeHost (granted : Bool)
  | probeAnswer (reachable : Bool)
deriving DecidableEq

namespace CommandDispatcher

/-- Why a command would not be sent now. -/
def blockedReason (d : CommandDispatcher) (command : List Char) : Option String :=
  if d.silence && !whitelisted command then
    some "blocked: radio silence active (only RADIO_RESUME, STATUS, PING are sent)"
  else none

/-- Submit a command: blocked it goes nowhere, and a background poll does not queue behind itself. -/
def send (d : CommandDispatcher) (command : List Char) (tag : ℕ) (quiet : Bool) : CommandDispatcher :=
  if (d.blockedReason command).isSome then d
  else if quiet then
    if d.quietPending.contains (strip command, tag) then d
    else { d with
      quietPending := (strip command, tag) :: d.quietPending
      queued := d.queued ++ [⟨command, tag, quiet⟩] }
  else { d with queued := d.queued ++ [⟨command, tag, quiet⟩] }

/-- The flag that a response sets, if it does. -/
def trackSilence (command : List Char) (reply : Reply) : Option Bool :=
  if !reply.ok then none
  else if commandVerb command = "RADIO_SILENCE".toList then some true
  else if commandVerb command = "RADIO_RESUME".toList then some false
  else if commandVerb command = "STATUS".toList then
    if reply.silence = some "1" then some true
    else if reply.silence = some "0" then some false
    else none
  else none

end CommandDispatcher

namespace GsBeacon

/-- A round is due. -/
def due (b : GsBeacon) (now : ℚ) : Bool :=
  match b.lastRound with
  | none => true
  | some last => decide ((if b.healthy then b.healthyIntervalS else b.intervalS) ≤ now - last)

/-- The datagrams of a round: beacons, and hellos for older builds while no telemetry arrives. -/
def datagrams (b : GsBeacon) (nonce : ℕ) (targets : List String) : List Datagram :=
  let fields := toString nonce ++ "," ++ toString b.telPort ++ "," ++ toString b.cmdPort
  let beacons := targets.map fun address =>
    ⟨"GS_BEACON," ++ fields ++ "," ++ toString b.priority ++ "\n", address⟩
  if b.healthy then beacons
  else beacons ++ targets.map fun address => ⟨"GS_HELLO," ++ fields ++ "\n", address⟩

/-- The first part of a check: in silence what is pending is dropped. -/
def check (b : GsBeacon) : GsBeacon :=
  if b.quiet then { b with pending := [], thread := .sleeping } else { b with thread := .checked }

/-- The second part: begin a round if one is due, and drop a round begun in the other link state. -/
def beginRound (b : GsBeacon) (now : ℚ) (nonce : ℕ) (targets : List String) : GsBeacon :=
  let begun :=
    if b.due now then
      { b with lastRound := some now, roundHealthy := some b.healthy, pending := b.datagrams nonce targets }
    else b
  { begun with thread := .sending (if begun.roundHealthy = some b.healthy then begun.pending else []) [] }

end GsBeacon

/-- What may leave in silence: the exchange of a command on the whitelist. -/
def Departure.allowed : Departure → Bool
  | .exchange command => whitelisted command
  | _ => false

/-- Every command that waits for a pool thread or for the budget is on the whitelist. -/
def CommandDispatcher.AtRest (d : CommandDispatcher) : Prop :=
  ∀ job ∈ d.queued ++ d.holding, whitelisted job.command = true

instance (d : CommandDispatcher) : Decidable d.AtRest :=
  inferInstanceAs (Decidable (∀ job ∈ d.queued ++ d.holding, whitelisted job.command = true))

/-- No datagram is to follow in the check under way. -/
def GsBeacon.atRest (b : GsBeacon) : Bool :=
  match b.thread with
  | .sleeping => true
  | .checked => false
  | .sending pending _ => pending.isEmpty

/-- No host is to follow in the round under way. -/
def CommandProbe.atRest (p : CommandProbe) : Bool :=
  match p.thread with
  | .sleeping => true
  | .probing => (p.round.getD []).isEmpty
  | .asking => (p.round.getD []).tail.isEmpty

namespace Station

/-- A station that starts out of silence. -/
def new (telPort cmdPort priority : ℕ) (hosts : List String) : Station where
  dispatcher := ⟨false, [], [], [], []⟩
  beacon := ⟨telPort, cmdPort, priority, 2, 15, false, false, none, none, [], .sleeping⟩
  probe := ⟨hosts, false, false, none, .sleeping⟩
  change := .none
  departed := []

/-- Switch the dispatcher's flag; the workers are told next, when it changes. -/
def setSilence (s : Station) (active : Bool) : Station :=
  if active = s.dispatcher.silence then s
  else { s with dispatcher := { s.dispatcher with silence := active }, change := .tellBeacon active }

/-- The window tells the next worker. -/
def tellWorker (s : Station) : Station :=
  match s.change with
  | .none => s
  | .tellBeacon active => { s with beacon := { s.beacon with quiet := active }, change := .tellProbe active }
  | .tellProbe active => { s with probe := { s.probe with quiet := active }, change := .none }

/-- A pool thread takes a job: too long it comes back at once, otherwise it asks the budget. -/
def startJob (s : Station) (index : ℕ) : Station :=
  match s.dispatcher.queued[index]? with
  | none => s
  | some job =>
    let taken := { s.dispatcher with queued := s.dispatcher.queued.eraseIdx index }
    { s with dispatcher :=
        if requestTooLong job.command then { taken with returning := taken.returning ++ [(job, false)] }
        else { taken with holding := taken.holding ++ [job] } }

/-- The budget answers a job: the exchange starts, or the job comes back. -/
def hold (s : Station) (index : ℕ) (granted : Bool) : Station :=
  match s.dispatcher.holding[index]? with
  | none => s
  | some job =>
    { s with
      dispatcher := { s.dispatcher with
        holding := s.dispatcher.holding.eraseIdx index
        returning := s.dispatcher.returning ++ [(job, granted)] }
      departed :=
        if granted then s.departed ++ [(.exchange job.command, s.dispatcher.silence)] else s.departed }

/-- A response reaches the dispatcher: of a background poll only the mark is dropped, any other may switch
the silence. -/
def response (s : Station) (index : ℕ) (reply : Reply) : Station :=
  match s.dispatcher.returning[index]? with
  | none => s
  | some (job, sent) =>
    let back := { s with dispatcher := { s.dispatcher with
      returning := s.dispatcher.returning.eraseIdx index
      quietPending :=
        if job.quiet then s.dispatcher.quietPending.erase (strip job.command, job.tag)
        else s.dispatcher.quietPending } }
    if job.quiet then back
    else
      match CommandDispatcher.trackSilence job.command { reply with ok := sent && reply.ok } with
      | none => back
      | some active => back.setSilence active

/-- The budget answers for the next datagram: it is sent or kept for the next check. -/
def sendDatagram (s : Station) (admitted : Bool) : Station :=
  match s.beacon.thread with
  | .sending (next :: pending) still =>
    if admitted then
      { s with
        beacon := { s.beacon with thread := .sending pending still }
        departed := s.departed ++ [(.datagram next, s.beacon.quiet)] }
    else { s with beacon := { s.beacon with thread := .sending pending (still ++ [next]) } }
  | .sending [] still => { s with beacon := { s.beacon with pending := still, thread := .sleeping } }
  | _ => s

/-- The probe thread wakes: a round is given up in silence or while telemetry arrives, otherwise it begins
or goes on. -/
def checkProbe (s : Station) : Station :=
  if s.probe.quiet || s.probe.healthy then { s with probe := { s.probe with round := none } }
  else { s with probe := { s.probe with round := some (s.probe.round.getD s.probe.hosts), thread := .probing } }

/-- The budget answers for the next host: the connection is opened, or the round is put off. -/
def probeHost (s : Station) (granted : Bool) : Station :=
  match s.probe.round with
  | some (host :: _) =>
    if granted then
      { s with
        probe := { s.probe with thread := .asking }
        departed := s.departed ++ [(.probe host, s.probe.quiet)] }
    else { s with probe := { s.probe with thread := .sleeping } }
  | _ => { s with probe := { s.probe with round := none, thread := .sleeping } }

/-- The host answers or does not: the round is over or goes on with the next host. -/
def probeAnswer (s : Station) (reachable : Bool) : Station :=
  if reachable then { s with probe := { s.probe with round := none, thread := .sleeping } }
  else { s with probe := { s.probe with round := s.probe.round.map List.tail, thread := .probing } }

/-- One step. A step out of turn does nothing: the window finishes a switch before it goes on, and each
worker goes through its stages in order. -/
def step (s : Station) : StationEvent → Station
  | .send command tag quiet =>
    if s.change = .none then { s with dispatcher := s.dispatcher.send command tag quiet } else s
  | .setSilence active => if s.change = .none then s.setSilence active else s
  | .tellWorker => s.tellWorker
  | .startJob index => s.startJob index
  | .hold index granted => s.hold index granted
  | .response index reply => if s.change = .none then s.response index reply else s
  | .setLinkHealthy healthy =>
    { s with beacon := { s.beacon with healthy := healthy }, probe := { s.probe with healthy := healthy } }
  | .checkBeacon => if s.beacon.thread = .sleeping then { s with beacon := s.beacon.check } else s
  | .beginRound now nonce targets =>
    if s.beacon.thread = .checked then { s with beacon := s.beacon.beginRound now nonce targets } else s
  | .sendDatagram admitted => s.sendDatagram admitted
  | .checkProbe => if s.probe.thread = .sleeping then s.checkProbe else s
  | .probeHost granted => if s.probe.thread = .probing then s.probeHost granted else s
  | .probeAnswer reachable => if s.probe.thread = .asking then s.probeAnswer reachable else s

/-- What has left while its sender was silent were exchanges of commands on the whitelist. -/
def KeepsSilence (s : Station) : Prop := ∀ departure ∈ s.departed, departure.2 = true → departure.1.allowed = true

/-- Each sender that the event silences is at rest. -/
def SwitchesAtRest (s : Station) (event : StationEvent) : Prop :=
  (s.dispatcher.silence = false → (s.step event).dispatcher.silence = true → s.dispatcher.AtRest) ∧
    (s.beacon.quiet = false → (s.step event).beacon.quiet = true → s.beacon.atRest = true) ∧
    (s.probe.quiet = false → (s.step event).probe.quiet = true → s.probe.atRest = true)

instance (s : Station) (event : StationEvent) : Decidable (s.SwitchesAtRest event) :=
  inferInstanceAs (Decidable
    ((s.dispatcher.silence = false → (s.step event).dispatcher.silence = true → s.dispatcher.AtRest) ∧
      (s.beacon.quiet = false → (s.step event).beacon.quiet = true → s.beacon.atRest = true) ∧
      (s.probe.quiet = false → (s.step event).probe.quiet = true → s.probe.atRest = true)))

/-- The invariant: a sender that is silent is at rest, and silence was kept. -/
structure Inv (s : Station) : Prop where
  dispatcher : s.dispatcher.silence = true → s.dispatcher.AtRest
  beacon : s.beacon.quiet = true → s.beacon.atRest = true
  probe : s.probe.quiet = true → s.probe.atRest = true
  kept : s.KeepsSilence

/-- One more departure keeps the silence if it is allowed whenever its sender is silent. -/
theorem keepsSilence_append {departed : List (Departure × Bool)} {departure : Departure × Bool}
    (h : ∀ earlier ∈ departed, earlier.2 = true → earlier.1.allowed = true)
    (hnew : departure.2 = true → departure.1.allowed = true) :
    ∀ earlier ∈ departed ++ [departure], earlier.2 = true → earlier.1.allowed = true := by
  intro earlier hmem
  rcases List.mem_append.mp hmem with hbefore | hlast
  · exact h earlier hbefore
  · rw [List.mem_singleton.mp hlast]
    exact hnew

/-- A station that starts has nothing under way. -/
theorem inv_new (telPort cmdPort priority : ℕ) (hosts : List String) :
    (new telPort cmdPort priority hosts).Inv :=
  ⟨fun h => absurd h Bool.false_ne_true, fun h => absurd h Bool.false_ne_true,
    fun h => absurd h Bool.false_ne_true, fun _ h => absurd h List.not_mem_nil⟩

/-- Submitting a command leaves a silent dispatcher at rest. -/
theorem send_atRest {d : CommandDispatcher} (h : d.silence = true → d.AtRest) (command : List Char) (tag : ℕ)
    (quiet : Bool) : (d.send command tag quiet).silence = true → (d.send command tag quiet).AtRest := by
  have hqueue (pending : List (List Char × ℕ)) (hopen : ¬ (d.blockedReason command).isSome = true)
      (hsilent : d.silence = true) :
      CommandDispatcher.AtRest { d with quietPending := pending, queued := d.queued ++ [⟨command, tag, quiet⟩] } := by
    have hlisted : whitelisted command = true := by
      by_contra hno
      exact hopen (by simp [CommandDispatcher.blockedReason, hsilent, hno])
    intro job hjob
    rw [List.append_assoc, List.mem_append] at hjob
    rcases hjob with hqueued | hrest
    · exact h hsilent job (List.mem_append_left _ hqueued)
    · rcases List.mem_append.mp hrest with hnew | hholding
      · rw [List.mem_singleton.mp hnew]
        exact hlisted
      · exact h hsilent job (List.mem_append_right _ hholding)
  unfold CommandDispatcher.send
  split
  · exact h
  · rename_i hopen
    split
    · split
      · exact h
      · exact hqueue _ hopen
    · exact hqueue _ hopen

/-- A pool thread that takes a job leaves a silent dispatcher at rest. -/
theorem Inv.startJob {s : Station} (hs : s.Inv) (index : ℕ) : (s.startJob index).Inv := by
  unfold Station.startJob
  split
  · exact hs
  · rename_i job hjob
    have hmem := List.mem_of_getElem? hjob
    refine ⟨?_, hs.beacon, hs.probe, hs.kept⟩
    dsimp only
    split
    · intro hsilent other hother
      rcases List.mem_append.mp hother with hqueued | hholding
      · exact hs.dispatcher hsilent other (List.mem_append_left _ (List.mem_of_mem_eraseIdx hqueued))
      · exact hs.dispatcher hsilent other (List.mem_append_right _ hholding)
    · intro hsilent other hother
      rcases List.mem_append.mp hother with hqueued | hholding
      · exact hs.dispatcher hsilent other (List.mem_append_left _ (List.mem_of_mem_eraseIdx hqueued))
      · rcases List.mem_append.mp hholding with hbefore | hnew
        · exact hs.dispatcher hsilent other (List.mem_append_right _ hbefore)
        · rw [List.mem_singleton.mp hnew]
          exact hs.dispatcher hsilent job (List.mem_append_left _ hmem)

/-- The exchange that a silent dispatcher starts is allowed. -/
theorem Inv.hold {s : Station} (hs : s.Inv) (index : ℕ) (granted : Bool) : (s.hold index granted).Inv := by
  unfold Station.hold
  split
  · exact hs
  · rename_i job hjob
    have hmem := List.mem_of_getElem? hjob
    refine ⟨?_, hs.beacon, hs.probe, ?_⟩
    · intro hsilent other hother
      rcases List.mem_append.mp hother with hqueued | hholding
      · exact hs.dispatcher hsilent other (List.mem_append_left _ hqueued)
      · exact hs.dispatcher hsilent other (List.mem_append_right _ (List.mem_of_mem_eraseIdx hholding))
    · simp only [KeepsSilence]
      split
      · exact keepsSilence_append hs.kept fun hsilent =>
          hs.dispatcher hsilent job (List.mem_append_right _ hmem)
      · exact hs.kept

/-- A switch of the flag keeps the invariant when nothing is under way. -/
theorem Inv.setSilence {s : Station} (hs : s.Inv) {active : Bool}
    (hrest : s.dispatcher.silence = false → active = true → s.dispatcher.AtRest) : (s.setSilence active).Inv := by
  unfold Station.setSilence
  split
  · exact hs
  · rename_i hchanges
    refine ⟨fun hsilent => ?_, hs.beacon, hs.probe, hs.kept⟩
    have hactive : active = true := hsilent
    exact hrest (Bool.eq_false_of_not_eq_true fun h => hchanges (hactive.trans h.symm)) hactive

/-- A worker that is told keeps the invariant when it is at rest. -/
theorem Inv.tellWorker {s : Station} (hs : s.Inv) (hok : s.SwitchesAtRest .tellWorker) :
    s.tellWorker.Inv := by
  obtain ⟨-, hbeacon, hprobe⟩ := hok
  simp only [Station.step, Station.tellWorker] at hbeacon hprobe
  unfold Station.tellWorker
  split
  · exact hs
  · rename_i active hchange
    rw [hchange] at hbeacon
    refine ⟨hs.dispatcher, fun hquiet => ?_, hs.probe, hs.kept⟩
    cases hbefore : s.beacon.quiet with
    | true => exact hs.beacon hbefore
    | false => exact hbeacon hbefore hquiet
  · rename_i active hchange
    rw [hchange] at hprobe
    refine ⟨hs.dispatcher, hs.beacon, fun hquiet => ?_, hs.kept⟩
    cases hbefore : s.probe.quiet with
    | true => exact hs.probe hbefore
    | false => exact hprobe hbefore hquiet

/-- A datagram leaves a silent beacon in no step. -/
theorem Inv.sendDatagram {s : Station} (hs : s.Inv) (admitted : Bool) : (s.sendDatagram admitted).Inv := by
  unfold Station.sendDatagram
  split
  · rename_i next pending still hthread
    have hloud : s.beacon.quiet = false := by
      refine Bool.eq_false_of_not_eq_true fun hquiet => ?_
      have hrest := hs.beacon hquiet
      simp [GsBeacon.atRest, hthread] at hrest
    split
    · refine ⟨hs.dispatcher, fun hquiet => ?_, hs.probe, keepsSilence_append hs.kept fun hquiet => ?_⟩
      · exact absurd (hloud.symm.trans hquiet) Bool.false_ne_true
      · exact absurd (hloud.symm.trans hquiet) Bool.false_ne_true
    · exact ⟨hs.dispatcher, fun hquiet => absurd (hloud.symm.trans hquiet) Bool.false_ne_true, hs.probe, hs.kept⟩
  · exact ⟨hs.dispatcher, fun _ => rfl, hs.probe, hs.kept⟩
  · exact hs

/-- A silent probe opens no connection. -/
theorem Inv.probeHost {s : Station} (hs : s.Inv) (hthread : s.probe.thread = .probing) (granted : Bool) :
    (s.probeHost granted).Inv := by
  unfold Station.probeHost
  split
  · rename_i host rest hround
    have hloud : s.probe.quiet = false := by
      refine Bool.eq_false_of_not_eq_true fun hquiet => ?_
      have hrest := hs.probe hquiet
      simp [CommandProbe.atRest, hthread, hround] at hrest
    split
    · refine ⟨hs.dispatcher, hs.beacon, fun hquiet => ?_, keepsSilence_append hs.kept fun hquiet => ?_⟩
      · exact absurd (hloud.symm.trans hquiet) Bool.false_ne_true
      · exact absurd (hloud.symm.trans hquiet) Bool.false_ne_true
    · exact ⟨hs.dispatcher, hs.beacon, fun _ => rfl, hs.kept⟩
  · exact ⟨hs.dispatcher, hs.beacon, fun _ => rfl, hs.kept⟩

/-- A probe that was answered goes on only as far as it would have. -/
theorem Inv.probeAnswer {s : Station} (hs : s.Inv) (hthread : s.probe.thread = .asking) (reachable : Bool) :
    (s.probeAnswer reachable).Inv := by
  unfold Station.probeAnswer
  split
  · exact ⟨hs.dispatcher, hs.beacon, fun _ => rfl, hs.kept⟩
  · refine ⟨hs.dispatcher, hs.beacon, fun hquiet => ?_, hs.kept⟩
    have hrest := hs.probe hquiet
    simp only [CommandProbe.atRest, hthread] at hrest ⊢
    cases hround : s.probe.round with
    | none => rfl
    | some hosts =>
      rw [hround] at hrest
      exact hrest

/-- A switch leaves the flag as it is told. -/
theorem setSilence_silence (s : Station) (active : Bool) : (s.setSilence active).dispatcher.silence = active := by
  unfold Station.setSilence
  split
  · rename_i hsame
    exact hsame.symm
  · rfl

/-- A response keeps the invariant: it may switch the silence, with nothing under way. -/
theorem Inv.response {s : Station} (hs : s.Inv) {index : ℕ} {reply : Reply}
    (hrest : s.dispatcher.silence = false → (s.response index reply).dispatcher.silence = true →
      s.dispatcher.AtRest) : (s.response index reply).Inv := by
  unfold Station.response at hrest ⊢
  split
  · exact hs
  · rename_i job sent hjob
    rw [hjob] at hrest
    dsimp only at hrest ⊢
    generalize hback : ({ s with dispatcher := _ } : Station) = back at hrest ⊢
    have hinv : back.Inv := by
      subst hback
      exact ⟨hs.dispatcher, hs.beacon, hs.probe, hs.kept⟩
    have hsame : back.dispatcher.silence = s.dispatcher.silence ∧ (s.dispatcher.AtRest → back.dispatcher.AtRest) := by
      subst hback
      exact ⟨rfl, id⟩
    split
    · exact hinv
    · rename_i hloud
      rw [if_neg hloud] at hrest
      split
      · exact hinv
      · rename_i active htrack
        rw [htrack] at hrest
        refine hinv.setSilence fun hbefore hactive => ?_
        exact hsame.2 (hrest (hsame.1.symm.trans hbefore) ((setSilence_silence back active).trans hactive))

/-- Every step that silences only senders at rest keeps the invariant. -/
theorem inv_step (s : Station) (event : StationEvent) (hs : s.Inv) (hok : s.SwitchesAtRest event) :
    (s.step event).Inv := by
  cases event with
  | send command tag quiet =>
    simp only [step]
    split
    · exact ⟨send_atRest hs.dispatcher command tag quiet, hs.beacon, hs.probe, hs.kept⟩
    · exact hs
  | setSilence active =>
    have hrest := hok.1
    simp only [step] at hrest ⊢
    split
    · rename_i hready
      rw [if_pos hready] at hrest
      exact hs.setSilence fun hbefore hactive =>
        hrest hbefore ((setSilence_silence s active).trans hactive)
    · exact hs
  | tellWorker => exact hs.tellWorker hok
  | startJob index => exact hs.startJob index
  | hold index granted => exact hs.hold index granted
  | response index reply =>
    have hrest := hok.1
    simp only [step] at hrest ⊢
    split
    · rename_i hready
      rw [if_pos hready] at hrest
      exact hs.response hrest
    · exact hs
  | setLinkHealthy healthy => exact ⟨hs.dispatcher, hs.beacon, hs.probe, hs.kept⟩
  | checkBeacon =>
    simp only [step, GsBeacon.check]
    split
    · refine ⟨hs.dispatcher, ?_, hs.probe, hs.kept⟩
      dsimp only
      split
      · exact fun _ => rfl
      · rename_i hloud
        exact fun hquiet => absurd hquiet hloud
    · exact hs
  | beginRound now nonce targets =>
    simp only [step]
    split
    · rename_i hthread
      refine ⟨hs.dispatcher, fun hquiet => ?_, hs.probe, hs.kept⟩
      have hbefore : s.beacon.quiet = true := by
        unfold GsBeacon.beginRound at hquiet
        dsimp only at hquiet
        split at hquiet <;> exact hquiet
      have hrest := hs.beacon hbefore
      simp [GsBeacon.atRest, hthread] at hrest
    · exact hs
  | sendDatagram admitted => exact hs.sendDatagram admitted
  | checkProbe =>
    simp only [step, Station.checkProbe]
    split
    · rename_i hthread
      split
      · refine ⟨hs.dispatcher, hs.beacon, fun _ => ?_, hs.kept⟩
        simp [CommandProbe.atRest, hthread]
      · rename_i hactive
        refine ⟨hs.dispatcher, hs.beacon, fun hquiet => ?_, hs.kept⟩
        exact absurd (Bool.or_eq_true_iff.mpr (Or.inl hquiet)) hactive
    · exact hs
  | probeHost granted =>
    simp only [step]
    split
    · rename_i hthread
      exact hs.probeHost hthread granted
    · exact hs
  | probeAnswer reachable =>
    simp only [step]
    split
    · rename_i hthread
      exact hs.probeAnswer hthread reachable
    · exact hs

/-- In every run that silences each sender only while it is at rest, radio silence is kept. -/
theorem keepsSilence_of_switchesAtRest (telPort cmdPort priority : ℕ) (hosts : List String)
    (events : List StationEvent)
    (h : Meets step SwitchesAtRest (new telPort cmdPort priority hosts) events) :
    Holds step KeepsSilence (new telPort cmdPort priority hosts) events :=
  holds_of_meets inv_step (fun _ hs => hs.kept) (inv_new telPort cmdPort priority hosts) h

/-- RADIO_SILENCE is answered with nothing else under way; a motor command is refused, and neither the
beacon nor the probe begins anything. -/
def answeredSilence : List StationEvent :=
  [.send "RADIO_SILENCE".toList 1 false, .startJob 0, .hold 0 true, .response 0 ⟨true, none⟩, .tellWorker,
    .tellWorker, .send "STEPPER_MOVE 0 100".toList 2 false, .startJob 0, .hold 0 true, .checkBeacon,
    .beginRound 3 1 ["169.254.10.10"], .sendDatagram true, .checkProbe, .probeHost true]

/-- The run that is at rest when silence begins keeps it. -/
theorem keepsSilence_answeredSilence :
    Holds step KeepsSilence (new 4000 5000 100 ["169.254.10.10"]) answeredSilence :=
  keepsSilence_of_switchesAtRest 4000 5000 100 ["169.254.10.10"] answeredSilence (by decide +kernel)

/-- A motor command waits for the link budget as silence begins, and then finds room. -/
def waitingCommand : List StationEvent :=
  [.send "STEPPER_MOVE 0 100".toList 1 false, .startJob 0, .setSilence true, .tellWorker, .tellWorker,
    .hold 0 true]

/-- The motor command is sent in radio silence. -/
theorem waitingCommand_not_keepsSilence :
    ¬ Holds step KeepsSilence (new 4000 5000 100 ["169.254.10.10"]) waitingCommand := by
  intro h
  have hsent : (.exchange "STEPPER_MOVE 0 100".toList, true) ∈
      (run step (new 4000 5000 100 ["169.254.10.10"]) waitingCommand).departed := by
    decide +kernel
  exact absurd (h.last _ hsent rfl) (by decide +kernel)

end Station

end Coatheal.Ground
