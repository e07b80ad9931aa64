import Coatheal.Link.Targeting

/-!
# When the client asks for a failover

While it is connected the client compares the beacons of other stations with the
station it is connected to. Two beacons of one host of a higher priority within
the grace should ask for a failover. The client keeps one candidate with the time
it was first seen at, so only the first repetition of a candidate can ask. The
beacons heard on a connection are kept beside the client, for the statements.
-/

namespace Coatheal.Link

open Library Library.Text

/-- A station's beacon: who sent it, the priority it states, and when it was heard. -/
structure Beacon where
  host : List Char
  priority : ℤ
  heardAt : ℕ
deriving DecidableEq, Repr

/-- Two beacons of one host that state one priority. -/
def Beacon.SameKind (b other : Beacon) : Prop := b.host = other.host ∧ b.priority = other.priority

instance (b other : Beacon) : Decidable (b.SameKind other) :=
  inferInstanceAs (Decidable (b.host = other.host ∧ b.priority = other.priority))

/-- Being of one kind goes both ways. -/
theorem Beacon.SameKind.symm {b other : Beacon} (h : b.SameKind other) : other.SameKind b := ⟨h.1.symm, h.2.symm⟩

/-- Being of one kind goes on. -/
theorem Beacon.SameKind.trans {b other third : Beacon} (h : b.SameKind other) (hnext : other.SameKind third) :
    b.SameKind third :=
  ⟨h.1.trans hnext.1, h.2.trans hnext.2⟩

/-- Of beacons, the newest first, two are of one host and no more than a time apart. -/
def TwiceWithin (grace : ℕ) (beacons : List Beacon) : Prop :=
  ∃ later earlier, [later, earlier].Sublist beacons ∧ later.host = earlier.host ∧
    later.heardAt ≤ earlier.heardAt + grace

/-- A datagram comes from an address: the text of one is never empty. -/
def TargetEvent.Addressed : TargetEvent → Prop
  | .datagram _ senderIp => senderIp ≠ []
  | _ => True

/-- The steps of a client whose datagrams come from addresses. -/
abbrev AddressedEvent := { event : TargetEvent // event.Addressed }

namespace TelemetryClient

variable (c : TelemetryClient)

/-- The grace in nanoseconds. -/
def graceNanos : ℕ := c.config.graceSeconds.toNat * 10 ^ 9

/-- The beacon an event brings, if its numbers can be read. -/
def beaconOf : TargetEvent → Option Beacon
  | .datagram line senderIp =>
    let tokens := getlines ',' (trimCrLf (line.takeWhile (· ≠ '\x00')))
    if tokens.head? = some "GS_BEACON".toList ∧ 5 ≤ tokens.length then
      match stoi (tokens.getD 2 []), stoi (tokens.getD 3 []), stoi (tokens.getD 4 []) with
      | some _, some _, some prio => some ⟨senderIp, prio, c.now⟩
      | _, _, _ => none
    else none
  | _ => none

/-- The connection stood before the step and stands after it. -/
def keepsConnection (event : TargetEvent) : Bool :=
  (match event with
    | .sendFrame _ _ => c.transmitEnabled && c.honorFailover.connected
    | _ => c.connected) && (c.step event).connected

/-- A beacon of another host, of a strictly higher priority than the station that is connected. -/
def outranks (b : Beacon) : Bool := decide (b.host ≠ c.activeHost ∧ b.priority > c.currentPriority)

end TelemetryClient

/-- A client with the beacons it has heard on its connection, the newest first. -/
structure FailoverWatch where
  client : TelemetryClient
  beacons : List Beacon
deriving DecidableEq, Repr

namespace FailoverWatch

/-- A client as it is built. -/
def new (config : TargetConfig) : FailoverWatch := ⟨.new config, []⟩

variable (w : FailoverWatch)

/-- One step of the client; the beacons of a connection are forgotten with it. -/
def step (event : AddressedEvent) : FailoverWatch where
  client := w.client.step event
  beacons := if w.client.keepsConnection event then (w.client.beaconOf event).toList ++ w.beacons else []

/-- The beacons of the connection that a failover goes by, the newest first. -/
def rivals : List Beacon := w.beacons.filter w.client.outranks

/-- One and the same host of a strictly higher priority has beaconed twice within the grace. -/
def Confirmed : Prop := TwiceWithin w.client.graceNanos w.rivals

/-- While the client is connected a failover is requested if and only if one is confirmed. -/
def Agrees : Prop := w.client.connected = true → (w.client.failoverRequested = true ↔ w.Confirmed)

/-- The beacon that another one repeats for the first time: the one directly before it, of the same host and
priority, when that one did not repeat the one before it. -/
def repeated (b : Beacon) : Option Beacon :=
  match w.rivals with
  | first :: before =>
    if first.SameKind b ∧ ∀ prior ∈ before.head?, ¬prior.SameKind b then some first else none
  | [] => none

/-- A beacon comes at a time that the candidate can tell: one within the grace of an earlier beacon of its host is
the first repetition of that one, and a first repetition does not come within the second after the grace. -/
def Telling (b : Beacon) : Prop :=
  (∀ earlier ∈ w.rivals, earlier.host = b.host → b.heardAt ≤ earlier.heardAt + w.client.graceNanos →
      (w.repeated b).isSome) ∧
    ∀ first ∈ w.repeated b, b.heardAt ≤ first.heardAt + w.client.graceNanos ∨
      first.heardAt + w.client.graceNanos + 10 ^ 9 ≤ b.heardAt

/-- The condition on a step: until a failover is confirmed, each beacon it goes by is telling. -/
def Timely (event : AddressedEvent) : Prop :=
  ∀ b ∈ w.client.beaconOf event,
    w.client.connected = true → w.client.outranks b = true → w.Confirmed ∨ w.Telling b

end FailoverWatch

/-- One more beacon is the later of two, or two came before it. -/
theorem twiceWithin_cons {grace : ℕ} {b : Beacon} {beacons : List Beacon} :
    TwiceWithin grace (b :: beacons) ↔
      (∃ earlier ∈ beacons, earlier.host = b.host ∧ b.heardAt ≤ earlier.heardAt + grace) ∨
        TwiceWithin grace beacons := by
  constructor
  · rintro ⟨later, earlier, hsub, hhost, hwithin⟩
    cases hsub with
    | cons _ hrest => exact Or.inr ⟨later, earlier, hrest, hhost, hwithin⟩
    | cons_cons _ hrest => exact Or.inl ⟨earlier, List.singleton_sublist.mp hrest, hhost.symm, hwithin⟩
  · rintro (⟨earlier, hearlier, hhost, hwithin⟩ | ⟨later, earlier, hsub, hhost, hwithin⟩)
    · exact ⟨b, earlier, (List.singleton_sublist.mpr hearlier).cons_cons b, hhost.symm, hwithin⟩
    · exact ⟨later, earlier, hsub.cons b, hhost, hwithin⟩

namespace TelemetryClient

variable {c : TelemetryClient}

/-- A step leaves the link and its candidate as they were. -/
structure KeepsCandidate (c c' : TelemetryClient) : Prop where
  config : c'.config = c.config
  activeHost : c'.activeHost = c.activeHost
  currentPriority : c'.currentPriority = c.currentPriority
  host : c'.failoverCandidateHost = c.failoverCandidateHost
  priority : c'.failoverCandidatePriority = c.failoverCandidatePriority
  firstSeen : c'.failoverFirstSeen = c.failoverFirstSeen
  requested : c'.failoverRequested = c.failoverRequested
  connected : c'.connected = c.connected
  now : c.now ≤ c'.now

/-- Nothing changed. -/
theorem KeepsCandidate.refl (c : TelemetryClient) : KeepsCandidate c c :=
  ⟨rfl, rfl, rfl, rfl, rfl, rfl, rfl, rfl, le_rfl⟩

/-- A datagram that is no readable beacon leaves the candidate. -/
theorem hearDatagram_keeps {line senderIp : List Char} (h : c.beaconOf (.datagram line senderIp) = none) :
    KeepsCandidate c (c.hearDatagram line senderIp) := by
  unfold hearDatagram
  unfold beaconOf at h
  dsimp only at h ⊢
  split
  · unfold processHello
    split
    · dsimp only
      split <;> exact ⟨rfl, rfl, rfl, rfl, rfl, rfl, rfl, rfl, le_rfl⟩
    · exact .refl c
  · split
    case isTrue hbeacon =>
      rw [if_pos hbeacon] at h
      unfold processBeacon
      split
      case h_1 tel cmd prio htel hcmd hprio =>
        rw [htel, hcmd, hprio] at h
        cases h
      case h_2 => exact .refl c
    case isFalse => exact .refl c

/-- A readable beacon is recorded, and a failover considered. -/
theorem hearDatagram_beacon {line senderIp : List Char} {b : Beacon}
    (h : c.beaconOf (.datagram line senderIp) = some b) :
    b.host = senderIp ∧ b.heardAt = c.now ∧ ∃ advert,
      c.hearDatagram line senderIp = (c.record advert).considerFailover b.host b.priority := by
  unfold beaconOf at h
  dsimp only at h
  split at h
  case isTrue hbeacon =>
    have hhello : ¬((getlines ',' (trimCrLf (line.takeWhile (· ≠ '\x00')))).head? = some "GS_HELLO".toList ∧
        4 ≤ (getlines ',' (trimCrLf (line.takeWhile (· ≠ '\x00')))).length) := by
      rintro ⟨hhead, _⟩
      rw [hbeacon.1] at hhead
      exact absurd (Option.some.inj hhead) (by decide)
    split at h
    case h_1 tel cmd prio htel hcmd hprio =>
      obtain rfl := Option.some.inj h
      refine ⟨rfl, rfl, ⟨senderIp, tel, cmd, prio, c.now⟩, ?_⟩
      unfold hearDatagram processBeacon
      dsimp only
      rw [if_neg hhello, if_pos hbeacon, htel, hcmd, hprio]
    case h_2 => cases h
  case isFalse => cases h

/-- A command peer that leaves the connection does nothing to the link. -/
theorem followPeer_eq (host : List Char) (priority : ℤ) (hbefore : c.connected = true)
    (hafter : (c.followPeer host priority).connected = true) : c.followPeer host priority = c := by
  unfold followPeer at hafter ⊢
  by_cases hdrops : c.connected = true ∧ host ≠ c.activeHost ∧ priority ≥ c.currentPriority
  · rw [if_pos hdrops] at hafter
    dsimp only at hafter
    split at hafter <;> simp [abort] at hafter
  · rw [if_neg hdrops]
    dsimp only
    rw [if_neg (by simp [hbefore])]

/-- A frame that is sent on a connection without a failover request does nothing to the link. -/
theorem sendFrame_eq (room : Bool) (outcome : DialOutcome) (htransmit : c.transmitEnabled = true)
    (hstands : c.honorFailover.connected = true) : c.sendFrame room outcome = c := by
  have hboth : c.connected = true ∧ c.failoverRequested = false := by
    simpa [honorFailover, Bool.and_eq_true_iff] using hstands
  have hsame : c.honorFailover = c := by
    cases c
    simp_all [honorFailover]
  unfold sendFrame reconnect
  rw [if_neg (by simp [htransmit]), hsame, if_pos (Or.inl hboth.1)]

/-- A step that keeps the connection and brings no beacon leaves the candidate. -/
theorem step_keeps {event : TargetEvent} (hkeeps : c.keepsConnection event = true)
    (hnone : c.beaconOf event = none) : KeepsCandidate c (c.step event) := by
  unfold keepsConnection at hkeeps
  obtain ⟨hbefore, hafter⟩ := Bool.and_eq_true_iff.mp hkeeps
  cases event with
  | wait nanoseconds => exact ⟨rfl, rfl, rfl, rfl, rfl, rfl, rfl, rfl, Nat.le_add_right _ _⟩
  | datagram line senderIp => exact hearDatagram_keeps hnone
  | observe host telemetryPort commandPort priority =>
    simp only [step, observeGroundStation] at hafter ⊢
    split at hafter
    case isTrue hempty =>
      rw [if_pos hempty]
      exact .refl c
    case isFalse hhost =>
      rw [if_neg hhost, followPeer_eq (c := c.record _) host priority hbefore hafter]
      exact ⟨rfl, rfl, rfl, rfl, rfl, rfl, rfl, rfl, le_rfl⟩
  | sendFrame room outcome =>
    obtain ⟨htransmit, hstands⟩ := Bool.and_eq_true_iff.mp hbefore
    rw [step, sendFrame_eq room outcome htransmit hstands]
    exact .refl c
  | exchangeFailed => simp [step, abort] at hafter
  | oversize => simp [step, abort] at hafter
  | setTransmitEnabled enabled =>
    cases enabled with
    | true => exact ⟨rfl, rfl, rfl, rfl, rfl, rfl, rfl, rfl, le_rfl⟩
    | false => simp [step, abort] at hafter

/-- The failover decision leaves the connection. -/
theorem considerFailover_connected (senderIp : List Char) (priority : ℤ) :
    (c.considerFailover senderIp priority).connected = c.connected := by
  unfold considerFailover
  split
  · split
    · split <;> rfl
    · rfl
  · rfl

/-- A datagram leaves the connection. -/
theorem hearDatagram_connected (line senderIp : List Char) :
    (c.hearDatagram line senderIp).connected = c.connected := by
  cases hbeacon : c.beaconOf (.datagram line senderIp) with
  | none => exact (hearDatagram_keeps hbeacon).connected
  | some b =>
    obtain ⟨_, _, advert, hstep⟩ := hearDatagram_beacon hbeacon
    rw [hstep, considerFailover_connected]
    rfl

/-- A command peer connects nothing. -/
theorem followPeer_connected (host : List Char) (priority : ℤ) (hbefore : c.connected = false) :
    (c.followPeer host priority).connected = false := by
  have hstays : ¬(c.connected = true ∧ host ≠ c.activeHost ∧ priority ≥ c.currentPriority) := by
    simp [hbefore]
  unfold followPeer
  rw [if_neg hstays]
  dsimp only
  split <;> exact hbefore

/-- A new connection has no candidate and no request. -/
theorem connect_forgets (outcome : DialOutcome) (hconnected : (c.connect outcome).connected = true) :
    (c.connect outcome).failoverCandidateHost = [] ∧ (c.connect outcome).failoverRequested = false := by
  unfold connect at hconnected ⊢
  split
  case h_1 hnone =>
    rw [hnone] at hconnected
    cases hconnected
  case h_2 target hsome =>
    rw [hsome] at hconnected
    cases outcome with
    | unreachable => cases hconnected
    | helloLost => exact ⟨rfl, rfl⟩
    | connected => exact ⟨rfl, rfl⟩

/-- When the next attempt is made does not show in whether there is a connection. -/
theorem connected_attempt (nextConnectAttempt : ℕ) (connectBackoffMs : ℤ) :
    ({ c with nextConnectAttempt := nextConnectAttempt, connectBackoffMs := connectBackoffMs } :
      TelemetryClient).connected = c.connected := rfl

/-- Backing off leaves whether there is a connection. -/
theorem backOff_connected (started : ℕ) : (c.backOff started).connected = c.connected :=
  connected_attempt _ _

/-- A connection that an attempt makes is a new one. -/
theorem reconnect_forgets (room : Bool) (outcome : DialOutcome) (hbefore : c.connected = false)
    (hafter : (c.reconnect room outcome).connected = true) :
    (c.reconnect room outcome).failoverCandidateHost = [] ∧
      (c.reconnect room outcome).failoverRequested = false := by
  have hforgets := connect_forgets (c := c) outcome
  unfold reconnect at hafter ⊢
  generalize c.connect outcome = attempt at hforgets hafter ⊢
  split
  case isTrue hnot =>
    rw [if_pos hnot, hbefore] at hafter
    cases hafter
  case isFalse hdue =>
    rw [if_neg hdue] at hafter
    split
    case isTrue hconnected => exact hforgets hconnected
    case isFalse hfailed =>
      rw [if_neg hfailed, backOff_connected] at hafter
      exact absurd hafter hfailed

/-- A connection that did not stand before a step is a new one. -/
theorem step_forgets {event : TargetEvent} (hkeeps : c.keepsConnection event = false)
    (hafter : (c.step event).connected = true) :
    (c.step event).failoverCandidateHost = [] ∧ (c.step event).failoverRequested = false := by
  unfold keepsConnection at hkeeps
  rw [hafter, Bool.and_true] at hkeeps
  cases event with
  | wait nanoseconds => exact absurd hafter (by simp [step, hkeeps])
  | datagram line senderIp => exact absurd hafter (by simp [step, hearDatagram_connected, hkeeps])
  | observe host telemetryPort commandPort priority =>
    simp only [step, observeGroundStation] at hafter
    split at hafter
    · exact absurd hafter (by simp [hkeeps])
    · rw [followPeer_connected (c := c.record _) host priority hkeeps] at hafter
      cases hafter
  | sendFrame room outcome =>
    simp only [step, sendFrame] at hafter ⊢
    by_cases hsilent : c.transmitEnabled = false
    · rw [if_pos hsilent] at hafter
      cases hafter
    · rw [if_neg hsilent] at hafter ⊢
      have hdown : c.honorFailover.connected = false := by simpa [hsilent] using hkeeps
      exact reconnect_forgets room outcome hdown hafter
  | exchangeFailed => cases hafter
  | oversize => cases hafter
  | setTransmitEnabled enabled =>
    cases enabled with
    | true => exact absurd hafter (by simp [step, hkeeps])
    | false => cases hafter

/-- When the failover decision asks for a failover. -/
theorem considerFailover_requested (senderIp : List Char) (priority : ℤ) :
    (c.considerFailover senderIp priority).failoverRequested = true ↔
      c.failoverRequested = true ∨
        ((c.connected ∧ senderIp ≠ c.activeHost ∧ priority > c.currentPriority) ∧
          (c.failoverCandidateHost = senderIp ∧ c.failoverCandidatePriority = priority) ∧
          (wholeSeconds (c.now - c.failoverFirstSeen) : ℤ) ≤ c.config.graceSeconds) := by
  unfold considerFailover
  by_cases houtranks : c.connected ∧ senderIp ≠ c.activeHost ∧ priority > c.currentPriority
  · rw [if_pos houtranks]
    by_cases hsame : c.failoverCandidateHost = senderIp ∧ c.failoverCandidatePriority = priority
    · rw [if_pos hsame]
      by_cases hgrace : (wholeSeconds (c.now - c.failoverFirstSeen) : ℤ) ≤ c.config.graceSeconds
      · rw [if_pos hgrace]
        exact ⟨fun _ => Or.inr ⟨houtranks, hsame, hgrace⟩, fun _ => rfl⟩
      · rw [if_neg hgrace]
        exact ⟨Or.inl, fun h => h.resolve_right fun hnow => hgrace hnow.2.2⟩
    · rw [if_neg hsame]
      exact ⟨Or.inl, fun h => h.resolve_right fun hnow => hsame hnow.2.1⟩
  · rw [if_neg houtranks]
    exact ⟨Or.inl, fun h => h.resolve_right fun hnow => houtranks hnow.1⟩

/-- The failover decision leaves the station that is connected, the configuration and the time. -/
theorem considerFailover_link (senderIp : List Char) (priority : ℤ) :
    (c.considerFailover senderIp priority).activeHost = c.activeHost ∧
      (c.considerFailover senderIp priority).currentPriority = c.currentPriority ∧
      (c.considerFailover senderIp priority).config = c.config ∧
      (c.considerFailover senderIp priority).now = c.now := by
  unfold considerFailover
  split
  · split
    · split <;> exact ⟨rfl, rfl, rfl, rfl⟩
    · exact ⟨rfl, rfl, rfl, rfl⟩
  · exact ⟨rfl, rfl, rfl, rfl⟩

/-- The candidate after a beacon that outranks the station: one that repeats it keeps the time it was first seen. -/
theorem considerFailover_candidate {senderIp : List Char} {priority : ℤ}
    (houtranks : c.connected ∧ senderIp ≠ c.activeHost ∧ priority > c.currentPriority) :
    (c.considerFailover senderIp priority).failoverCandidateHost = senderIp ∧
      (c.considerFailover senderIp priority).failoverCandidatePriority = priority ∧
      (c.failoverCandidateHost = senderIp ∧ c.failoverCandidatePriority = priority →
        (c.considerFailover senderIp priority).failoverFirstSeen = c.failoverFirstSeen) ∧
      (¬(c.failoverCandidateHost = senderIp ∧ c.failoverCandidatePriority = priority) →
        (c.considerFailover senderIp priority).failoverFirstSeen = c.now) := by
  unfold considerFailover
  rw [if_pos houtranks]
  by_cases hsame : c.failoverCandidateHost = senderIp ∧ c.failoverCandidatePriority = priority
  · rw [if_pos hsame]
    split
    · exact ⟨hsame.1, hsame.2, fun _ => rfl, absurd hsame⟩
    · exact ⟨hsame.1, hsame.2, fun _ => rfl, absurd hsame⟩
  · rw [if_neg hsame]
    exact ⟨rfl, rfl, fun h => absurd h hsame, fun _ => rfl⟩

/-- The whole seconds of a time are within the grace until a second after it. -/
theorem wholeSeconds_le_grace (duration : ℕ) :
    (wholeSeconds duration : ℤ) ≤ c.config.graceSeconds ↔ duration < c.graceNanos + 10 ^ 9 := by
  have hpositive : 0 < c.config.graceSeconds := by
    unfold TargetConfig.graceSeconds
    split <;> omega
  unfold wholeSeconds graceNanos
  omega

end TelemetryClient

namespace FailoverWatch

open TelemetryClient

variable {w : FailoverWatch}

/-- What the candidate stands for: the first of the newest beacons of one kind. Until a failover is requested those
that repeated it came too late to count. -/
def Candidacy (w : FailoverWatch) : Prop :=
  (w.rivals = [] ∧ w.client.failoverCandidateHost = []) ∨
    ∃ repeats first before, w.rivals = repeats ++ first :: before ∧
      w.client.failoverCandidateHost = first.host ∧ w.client.failoverCandidatePriority = first.priority ∧
      w.client.failoverFirstSeen = first.heardAt ∧ (∀ b ∈ repeats, b.SameKind first) ∧
      (∀ prior ∈ before.head?, ¬prior.SameKind first) ∧
      (w.client.failoverRequested = false →
        ∀ b ∈ repeats, first.heardAt + w.client.graceNanos + 10 ^ 9 ≤ b.heardAt)

/-- What holds along a run whose beacons are telling: the beacons are in order, and the candidate and the request are
what they make them. -/
structure Tracked (w : FailoverWatch) : Prop where
  past : ∀ b ∈ w.beacons, b.heardAt ≤ w.client.now
  ordered : w.beacons.Pairwise fun later earlier => earlier.heardAt ≤ later.heardAt
  candidacy : w.client.connected = true → w.Candidacy
  agrees : w.Agrees

/-- The beacons that a failover goes by are in order. -/
theorem Tracked.rivals_ordered (h : w.Tracked) :
    w.rivals.Pairwise fun later earlier => earlier.heardAt ≤ later.heardAt :=
  h.ordered.sublist List.filter_sublist

/-- The beacon that another one repeats for the first time. -/
theorem mem_repeated {b first : Beacon} : first ∈ w.repeated b ↔
    ∃ before, w.rivals = first :: before ∧ first.SameKind b ∧ ∀ prior ∈ before.head?, ¬prior.SameKind b := by
  unfold repeated
  cases hrivals : w.rivals with
  | nil => simp
  | cons last before =>
    constructor
    · intro h
      dsimp only at h
      split at h
      case isTrue hrepeats =>
        obtain rfl := Option.some.inj h
        exact ⟨before, rfl, hrepeats⟩
      case isFalse => cases h
    · rintro ⟨others, hsame, hrepeats⟩
      obtain ⟨rfl, rfl⟩ := List.cons.inj hsame
      exact if_pos hrepeats

/-- The decision on a beacon, as long as no failover is requested: the beacon must be the first repetition, and come
before a second has gone by after the grace. -/
theorem Tracked.asks_iff (h : w.Tracked) (hconnected : w.client.connected = true)
    (hnot : w.client.failoverRequested = false) {b : Beacon} (hhost : b.host ≠ [])
    (hnow : b.heardAt = w.client.now) :
    ((w.client.failoverCandidateHost = b.host ∧ w.client.failoverCandidatePriority = b.priority) ∧
        (wholeSeconds (w.client.now - w.client.failoverFirstSeen) : ℤ) ≤ w.client.config.graceSeconds) ↔
      ∃ first ∈ w.repeated b, b.heardAt < first.heardAt + w.client.graceNanos + 10 ^ 9 := by
  rw [wholeSeconds_le_grace]
  rcases h.candidacy hconnected with ⟨hnone, hempty⟩ | ⟨repeats, first, before, hsplit, hcandidate, hpriority,
    hseen, hrepeats, hfirst, hlate⟩
  · -- nothing to repeat: the host of a beacon is never the empty one
    rw [hempty]
    constructor
    · rintro ⟨⟨hsame, _⟩, _⟩
      exact absurd hsame.symm hhost
    · rintro ⟨first, hrepeated, _⟩
      obtain ⟨before, hsome, _⟩ := mem_repeated.mp hrepeated
      rw [hnone] at hsome
      cases hsome
  · rw [hcandidate, hpriority, hseen]
    have hpast : ∀ earlier ∈ w.rivals, earlier.heardAt ≤ w.client.now := fun earlier hearlier =>
      h.past earlier (List.mem_of_mem_filter hearlier)
    have hfirstPast : first.heardAt ≤ w.client.now := hpast first (by simp [hsplit])
    constructor
    · rintro ⟨hkind, hgrace⟩
      have hkindOf : first.SameKind b := hkind
      cases repeats with
      | nil =>
        refine ⟨first, mem_repeated.mpr ⟨before, hsplit, hkindOf, fun prior hprior hsame => ?_⟩, by omega⟩
        exact hfirst prior hprior (hsame.trans hkindOf.symm)
      | cons last repeats =>
        -- an earlier repetition came too late, and this one comes later still
        have hlast := hlate hnot last List.mem_cons_self
        have hlastPast := hpast last (by simp [hsplit])
        omega
    · rintro ⟨answered, hrepeated, hgrace⟩
      obtain ⟨others, hrivals, hkind, hopens⟩ := mem_repeated.mp hrepeated
      rw [hsplit] at hrivals
      cases repeats with
      | nil =>
        obtain ⟨rfl, rfl⟩ := List.cons.inj hrivals
        exact ⟨hkind, by omega⟩
      | cons last repeats =>
        obtain ⟨rfl, rfl⟩ := List.cons.inj hrivals
        have hfirstKind : first.SameKind b := (hrepeats last List.mem_cons_self).symm.trans hkind
        -- what came before the last repetition is of its kind as well
        cases repeats with
        | nil => exact absurd hfirstKind (hopens first rfl)
        | cons prior repeats =>
          have hprior := hrepeats prior (List.mem_cons_of_mem _ List.mem_cons_self)
          exact absurd (hprior.trans hfirstKind) (hopens prior rfl)

/-- A connection that was lost, or is new, has heard no beacon and has no candidate. -/
theorem step_tracked_lost {event : AddressedEvent} (hkeeps : w.client.keepsConnection event = false) :
    (w.step event).Tracked := by
  have hbeacons : (w.step event).beacons = [] := by simp [step, hkeeps]
  have hrivals : (w.step event).rivals = [] := by rw [rivals, hbeacons, List.filter_nil]
  refine ⟨by simp [hbeacons], by simp [hbeacons], fun hafter => ?_, fun hafter => ?_⟩
  · exact Or.inl ⟨hrivals, (step_forgets hkeeps hafter).1⟩
  · have hrequested : (w.step event).client.failoverRequested = false := (step_forgets hkeeps hafter).2
    rw [hrequested, Confirmed, hrivals]
    refine ⟨fun h => (by cases h), fun ⟨_, _, hsub, _⟩ => ?_⟩
    exact absurd (List.sublist_nil.mp hsub) (by simp)

/-- A step that brings no beacon leaves what is tracked. -/
theorem Tracked.step_silent (h : w.Tracked) {event : AddressedEvent}
    (hkeeps : w.client.keepsConnection event = true) (hnone : w.client.beaconOf event = none) :
    (w.step event).Tracked := by
  have hsame := step_keeps hkeeps hnone
  have hbeacons : (w.step event).beacons = w.beacons := by simp [step, hkeeps, hnone]
  have hrivals : (w.step event).rivals = w.rivals := by
    have houtranks : (w.step event).client.outranks = w.client.outranks := by
      funext b
      simp only [outranks, step, hsame.activeHost, hsame.currentPriority]
    rw [rivals, rivals, hbeacons, houtranks]
  have hgrace : (w.step event).client.graceNanos = w.client.graceNanos := by
    simp only [graceNanos, step, hsame.config]
  refine ⟨fun b hb => ?_, ?_, fun hafter => ?_, fun hafter => ?_⟩
  · exact (h.past b (hbeacons ▸ hb)).trans hsame.now
  · rw [hbeacons]
    exact h.ordered
  · have hstill := h.candidacy (hsame.connected.symm.trans hafter)
    simp only [Candidacy, hrivals, hgrace] at hstill ⊢
    simpa only [step, hsame.host, hsame.priority, hsame.firstSeen, hsame.requested] using hstill
  · rw [Confirmed, hrivals, hgrace]
    exact (iff_of_eq (congrArg (· = true) hsame.requested)).trans (h.agrees (hsame.connected.symm.trans hafter))

/-- A beacon is recorded, a failover considered, and it is the newest one of the connection. -/
theorem step_beacon {event : AddressedEvent} {b : Beacon} (hkeeps : w.client.keepsConnection event = true)
    (hbeacon : w.client.beaconOf event = some b) :
    b.host ≠ [] ∧ b.heardAt = w.client.now ∧ w.client.connected = true ∧
      (w.step event).beacons = b :: w.beacons ∧
      ∃ advert, (w.step event).client = (w.client.record advert).considerFailover b.host b.priority := by
  obtain ⟨event, haddressed⟩ := event
  cases event with
  | datagram line senderIp =>
    obtain ⟨hhost, hnow, advert, hstep⟩ := hearDatagram_beacon hbeacon
    refine ⟨hhost ▸ haddressed, hnow, (Bool.and_eq_true_iff.mp hkeeps).1, ?_, advert, hstep⟩
    simp [step, hkeeps, hbeacon]
  | _ => cases hbeacon

/-- What a beacon makes of the request and of the law, on a connection. -/
structure Weighs (w w' : FailoverWatch) (b : Beacon) : Prop where
  rivals : w'.rivals = if w.client.outranks b then b :: w.rivals else w.rivals
  grace : w'.client.graceNanos = w.client.graceNanos
  now : w'.client.now = w.client.now
  requested : w'.client.failoverRequested = true ↔ w.client.failoverRequested = true ∨
    (w.client.outranks b = true ∧
      (w.client.failoverCandidateHost = b.host ∧ w.client.failoverCandidatePriority = b.priority) ∧
      (wholeSeconds (w.client.now - w.client.failoverFirstSeen) : ℤ) ≤ w.client.config.graceSeconds)

/-- Every beacon of a connection is weighed. -/
theorem step_weighs {event : AddressedEvent} {b : Beacon} (hkeeps : w.client.keepsConnection event = true)
    (hbeacon : w.client.beaconOf event = some b) : Weighs w (w.step event) b := by
  obtain ⟨_, _, hconnected, hbeacons, advert, hclient⟩ := step_beacon hkeeps hbeacon
  obtain ⟨hactive, hcurrent, hconfig, hnow⟩ :=
    considerFailover_link (c := w.client.record advert) b.host b.priority
  have houtranks : (w.step event).client.outranks = w.client.outranks := by
    funext other
    simp only [outranks, hclient, hactive, hcurrent]
    rfl
  refine ⟨?_, ?_, ?_, ?_⟩
  · rw [rivals, hbeacons, houtranks, List.filter_cons]
    rfl
  · simp only [graceNanos, hclient, hconfig]
    rfl
  · rw [hclient, hnow]
    rfl
  · rw [hclient, considerFailover_requested]
    simp only [record, outranks, hconnected, true_and, decide_eq_true_eq]

/-- The law after a beacon that is weighed. -/
theorem Weighs.confirmed_iff {w' : FailoverWatch} {b : Beacon} (h : Weighs w w' b) :
    w'.Confirmed ↔ (w.client.outranks b = true ∧
      ∃ earlier ∈ w.rivals, earlier.host = b.host ∧ b.heardAt ≤ earlier.heardAt + w.client.graceNanos) ∨
        w.Confirmed := by
  rw [Confirmed, h.rivals, h.grace]
  by_cases houtranks : w.client.outranks b = true
  · rw [if_pos houtranks, twiceWithin_cons]
    simp [houtranks, Confirmed]
  · rw [if_neg houtranks]
    simp [houtranks, Confirmed]

/-- The beacon directly before another one is the newest of those before it. -/
theorem Tracked.heardAt_le_repeated (h : w.Tracked) {b first earlier : Beacon} (hrepeated : first ∈ w.repeated b)
    (hearlier : earlier ∈ w.rivals) : earlier.heardAt ≤ first.heardAt := by
  obtain ⟨before, hrivals, _⟩ := mem_repeated.mp hrepeated
  have hordered := h.rivals_ordered
  rw [hrivals] at hearlier hordered
  rcases List.mem_cons.mp hearlier with rfl | hbefore
  · exact le_rfl
  · exact (List.pairwise_cons.mp hordered).1 earlier hbefore

/-- A beacon is telling exactly when it asks for a failover if and only if it completes two within the grace. -/
theorem Tracked.telling_iff (h : w.Tracked) (b : Beacon) :
    w.Telling b ↔ ((∃ first ∈ w.repeated b, b.heardAt < first.heardAt + w.client.graceNanos + 10 ^ 9) ↔
      ∃ earlier ∈ w.rivals, earlier.host = b.host ∧ b.heardAt ≤ earlier.heardAt + w.client.graceNanos) := by
  constructor
  · intro htelling
    constructor
    · rintro ⟨first, hrepeated, hsoon⟩
      obtain ⟨before, hrivals, hkind, _⟩ := mem_repeated.mp hrepeated
      rcases htelling.2 first hrepeated with hwithin | hlater
      · exact ⟨first, by simp [hrivals], hkind.1, hwithin⟩
      · omega
    · rintro ⟨earlier, hearlier, hhost, hwithin⟩
      obtain ⟨first, hrepeated⟩ := Option.isSome_iff_exists.mp (htelling.1 earlier hearlier hhost hwithin)
      have hlast := h.heardAt_le_repeated hrepeated hearlier
      exact ⟨first, hrepeated, by omega⟩
  · intro hiff
    refine ⟨fun earlier hearlier hhost hwithin => ?_, fun first hrepeated => ?_⟩
    · obtain ⟨first, hrepeated, _⟩ := hiff.mpr ⟨earlier, hearlier, hhost, hwithin⟩
      exact Option.isSome_iff_exists.mpr ⟨first, hrepeated⟩
    · by_contra hgap
      obtain ⟨hafter, hbefore⟩ := not_or.mp hgap
      obtain ⟨earlier, hearlier, _, hwithin⟩ := hiff.mp ⟨first, hrepeated, not_le.mp hbefore⟩
      have hlast := h.heardAt_le_repeated hrepeated hearlier
      omega

/-- A beacon keeps the request and the law together exactly when it is timely. -/
theorem Tracked.agrees_beacon_iff (h : w.Tracked) {event : AddressedEvent} {b : Beacon}
    (hkeeps : w.client.keepsConnection event = true) (hbeacon : w.client.beaconOf event = some b) :
    (w.step event).Agrees ↔ w.Timely event := by
  obtain ⟨hhost, hnow, hconnected, _, _⟩ := step_beacon hkeeps hbeacon
  have hweighs := step_weighs hkeeps hbeacon
  have hafter : (w.step event).client.connected = true := (Bool.and_eq_true_iff.mp hkeeps).2
  have hagrees := h.agrees hconnected
  have htimely : w.Timely event ↔ (w.client.outranks b = true → w.Confirmed ∨ w.Telling b) := by
    simp [Timely, hbeacon, hconnected]
  rw [htimely]
  simp only [Agrees, hafter, hweighs.requested, hweighs.confirmed_iff, forall_const]
  by_cases hconfirmed : w.Confirmed
  · simp [hconfirmed, hagrees.mpr hconfirmed]
  · have hnot : w.client.failoverRequested = false := by
      simpa [hconfirmed] using hagrees
    rw [h.asks_iff hconnected hnot hhost hnow, h.telling_iff b]
    by_cases houtranks : w.client.outranks b = true
    · simp [hconfirmed, hnot, houtranks]
    · simp [hconfirmed, hnot, houtranks]

/-- The newest of the beacons is of the candidate's kind. -/
theorem Candidacy.head_kind (h : w.Candidacy) {newest : Beacon} (hnewest : newest ∈ w.rivals.head?) :
    newest.host = w.client.failoverCandidateHost ∧ newest.priority = w.client.failoverCandidatePriority := by
  rcases h with ⟨hnone, _⟩ | ⟨repeats, first, before, hsplit, hcandidate, hpriority, _, hrepeats, _⟩
  · rw [hnone] at hnewest
    cases hnewest
  · rw [hcandidate, hpriority]
    cases repeats with
    | nil =>
      rw [hsplit] at hnewest
      obtain rfl := Option.some.inj hnewest
      exact ⟨rfl, rfl⟩
    | cons last repeats =>
      rw [hsplit] at hnewest
      obtain rfl := Option.some.inj hnewest
      exact hrepeats last List.mem_cons_self

/-- A beacon keeps the candidate to the first of the newest beacons of one kind. -/
theorem Tracked.candidacy_beacon (h : w.Tracked) {event : AddressedEvent} {b : Beacon}
    (hkeeps : w.client.keepsConnection event = true) (hbeacon : w.client.beaconOf event = some b) :
    (w.step event).Candidacy := by
  obtain ⟨hhost, hnow, hconnected, _, advert, hclient⟩ := step_beacon hkeeps hbeacon
  have hweighs := step_weighs hkeeps hbeacon
  have hcandidacy := h.candidacy hconnected
  by_cases houtranks : w.client.outranks b = true
  · have hrivals : (w.step event).rivals = b :: w.rivals := by rw [hweighs.rivals, if_pos houtranks]
    obtain ⟨hcandHost, hcandPriority, hkept, hreplaced⟩ :=
      @considerFailover_candidate (w.client.record advert) b.host b.priority
        ⟨hconnected, of_decide_eq_true houtranks⟩
    rw [← hclient] at hcandHost hcandPriority hkept hreplaced
    by_cases hsame : w.client.failoverCandidateHost = b.host ∧ w.client.failoverCandidatePriority = b.priority
    · rcases hcandidacy with ⟨_, hempty⟩ |
        ⟨repeats, first, before, hsplit, hcandidate, hpriority, hseen, hrepeats, hfirst, hlate⟩
      · exact absurd (hsame.1.symm.trans hempty) hhost
      · have hkind : b.SameKind first := ⟨hsame.1.symm.trans hcandidate, hsame.2.symm.trans hpriority⟩
        refine Or.inr ⟨b :: repeats, first, before, by rw [hrivals, hsplit, List.cons_append],
          hcandHost.trans hkind.1, hcandPriority.trans hkind.2, (hkept hsame).trans hseen, ?_, hfirst, ?_⟩
        · exact List.forall_mem_cons.mpr ⟨hkind, hrepeats⟩
        · intro hnot
          obtain ⟨hbefore, hasks⟩ := not_or.mp (mt hweighs.requested.mpr (by simp [hnot]))
          rw [hweighs.grace]
          refine List.forall_mem_cons.mpr ⟨?_, hlate (by simpa using hbefore)⟩
          -- the repetition did not ask, so the grace and a second were over
          have hover : ¬(wholeSeconds (w.client.now - w.client.failoverFirstSeen) : ℤ) ≤
              w.client.config.graceSeconds := fun hsoon => hasks ⟨houtranks, hsame, hsoon⟩
          rw [wholeSeconds_le_grace, hseen] at hover
          omega
    · have hseen := (hreplaced hsame).trans hnow.symm
      refine Or.inr ⟨[], b, w.rivals, hrivals, hcandHost, hcandPriority, hseen, by simp, ?_, by simp⟩
      intro prior hprior hkind
      obtain ⟨hpriorHost, hpriorPriority⟩ := hcandidacy.head_kind hprior
      exact hsame ⟨hpriorHost.symm.trans hkind.1, hpriorPriority.symm.trans hkind.2⟩
  · have hrivals : (w.step event).rivals = w.rivals := by rw [hweighs.rivals, if_neg houtranks]
    have hsame : (w.step event).client = w.client.record advert := by
      rw [hclient, considerFailover, if_neg fun hrank => houtranks (decide_eq_true hrank.2)]
    simp only [Candidacy, hrivals, hsame, record] at hcandidacy ⊢
    exact hcandidacy

/-- A timely step keeps what is tracked. -/
theorem Tracked.step (h : w.Tracked) (event : AddressedEvent) (htimely : w.Timely event) :
    (w.step event).Tracked := by
  by_cases hkeeps : w.client.keepsConnection event = true
  · cases hbeacon : w.client.beaconOf event with
    | none => exact h.step_silent hkeeps hbeacon
    | some b =>
      obtain ⟨_, hnow, _, hbeacons, _⟩ := step_beacon hkeeps hbeacon
      have hweighs := step_weighs hkeeps hbeacon
      refine ⟨?_, ?_, fun _ => h.candidacy_beacon hkeeps hbeacon, (h.agrees_beacon_iff hkeeps hbeacon).mpr htimely⟩
      · rw [hbeacons, hweighs.now]
        exact List.forall_mem_cons.mpr ⟨hnow.le, h.past⟩
      · rw [hbeacons]
        exact List.pairwise_cons.mpr ⟨fun earlier hearlier => hnow ▸ h.past earlier hearlier, h.ordered⟩
  · exact step_tracked_lost (by simpa using hkeeps)

/-- A step that is not timely parts the request from the law. -/
theorem Tracked.not_agrees (h : w.Tracked) (event : AddressedEvent) (hnot : ¬w.Timely event) :
    ¬(w.step event).Agrees := by
  obtain ⟨b, hb⟩ := not_forall.mp hnot
  obtain ⟨hbeacon, hrest⟩ := Classical.not_imp.mp hb
  obtain ⟨hconnected, _⟩ := Classical.not_imp.mp hrest
  have hkeeps : w.client.keepsConnection event = true := by
    obtain ⟨event, haddressed⟩ := event
    cases event with
    | datagram line senderIp =>
      have hafter := (hearDatagram_connected (c := w.client) line senderIp).trans hconnected
      exact Bool.and_eq_true_iff.mpr ⟨hconnected, hafter⟩
    | _ => cases hbeacon
  exact fun hagrees => hnot ((h.agrees_beacon_iff hkeeps hbeacon).mp hagrees)

/-- In every run the client requests a failover exactly when one is confirmed, in every state it goes through,
exactly when every beacon that counts is timely. -/
theorem agrees_iff_timely (config : TargetConfig) (events : List AddressedEvent) :
    Holds FailoverWatch.step Agrees (new config) events ↔ Meets FailoverWatch.step Timely (new config) events := by
  refine holds_iff_meets (fun w event (h : Tracked w) => h.step event) (fun w h => h.agrees)
    (fun w event h => h.not_agrees event) ⟨?_, ?_, ?_, ?_⟩
  · simp [new]
  · simp [new]
  · simp [new, TelemetryClient.new]
  · simp [Agrees, new, TelemetryClient.new]

/-- A spare station's beacon, of the priority given. -/
def spare (priority : String) : AddressedEvent :=
  ⟨.datagram ("GS_BEACON,spare,4000,5000,".toList ++ priority.toList) "10.0.0.7".toList, by
    simp [TargetEvent.Addressed]⟩

/-- The client connects to a station; a spare one of a higher priority is heard three times, the second time ten
seconds after the first and the third time a second later. -/
def lateSecond : List AddressedEvent :=
  [⟨.observe "10.0.0.42".toList 4000 5000 100, trivial⟩, ⟨.sendFrame true .connected, trivial⟩, spare "200",
    ⟨.wait (10 ^ 10), trivial⟩, spare "200", ⟨.wait (10 ^ 9), trivial⟩, spare "200"]

/-- The client when it has heard the spare station at some times, the latest one first. -/
def spareHeard (now : ℕ) (times : List ℕ) : FailoverWatch where
  client := { TelemetryClient.new benchTarget with
    now := now, activeHost := "10.0.0.42".toList, connected := true, currentPriority := 100
    failoverCandidateHost := "10.0.0.7".toList, failoverCandidatePriority := 200
    latestGs := times.head?.map (GroundStationAdvert.mk "10.0.0.7".toList 4000 5000 200)
    heard := ⟨"10.0.0.42".toList, 4000, 5000, 100, 0⟩ ::
      times.reverse.map (GroundStationAdvert.mk "10.0.0.7".toList 4000 5000 200) }
  beacons := times.map (Beacon.mk "10.0.0.7".toList 200)

/-- The run with the late second beacon, one beacon after the other. -/
theorem run_lateSecond :
    run FailoverWatch.step (new benchTarget) lateSecond = spareHeard (11 * 10 ^ 9) [11 * 10 ^ 9, 10 ^ 10, 0] := by
  have hfirst : run FailoverWatch.step (new benchTarget) (lateSecond.take 3) = spareHeard 0 [0] := by decide +kernel
  have hsecond : ((spareHeard 0 [0]).step ⟨.wait (10 ^ 10), trivial⟩).step (spare "200") =
      spareHeard (10 ^ 10) [10 ^ 10, 0] := by decide +kernel
  have hthird : ((spareHeard (10 ^ 10) [10 ^ 10, 0]).step ⟨.wait (10 ^ 9), trivial⟩).step (spare "200") =
      spareHeard (11 * 10 ^ 9) [11 * 10 ^ 9, 10 ^ 10, 0] := by decide +kernel
  have hevents : lateSecond = lateSecond.take 3 ++
      [⟨.wait (10 ^ 10), trivial⟩, spare "200", ⟨.wait (10 ^ 9), trivial⟩, spare "200"] := rfl
  rw [hevents, run_append, hfirst, run_cons, run_cons, hsecond, run_cons, run_cons, hthird, run_nil]

/-- The spare station is heard twice within the grace, and no failover is requested. -/
theorem not_agrees_lateSecond :
    ¬∀ (config : TargetConfig) (events : List AddressedEvent),
      (run FailoverWatch.step (new config) events).Agrees := by
  intro hall
  have hrivals : (spareHeard (11 * 10 ^ 9) [11 * 10 ^ 9, 10 ^ 10, 0]).rivals =
      [11 * 10 ^ 9, 10 ^ 10, 0].map (Beacon.mk "10.0.0.7".toList 200) := by
    decide +kernel
  have hagrees := hall benchTarget lateSecond
  rw [run_lateSecond] at hagrees
  have hconfirmed : (spareHeard (11 * 10 ^ 9) [11 * 10 ^ 9, 10 ^ 10, 0]).Confirmed := by
    rw [Confirmed, hrivals, List.map_cons, twiceWithin_cons]
    exact Or.inl ⟨_, List.mem_cons_self, rfl, by decide⟩
  cases (hagrees rfl).mpr hconfirmed

end FailoverWatch

end Coatheal.Link
