import Coatheal.Library.Run
import Coatheal.Library.Text
import Mathlib.Data.List.Induction

/-!
# Which ground station the client dials

The telemetry client hears of ground stations from their beacons, from the hello
of older ones and from command peers, and keeps the advertisement it heard last.
It dials the station of that one while it is fresh, and a fixed host otherwise.
Every advertisement that was heard is kept, for the statements only.
-/

namespace Coatheal.Link

open Library Library.Text

/-- An advertisement of a ground station, with the time it was heard at. -/
structure GroundStationAdvert where
  host : List Char
  telemetryPort : ℤ
  commandPort : ℤ
  priority : ℤ
  lastSeen : ℕ
deriving DecidableEq, Repr

/-- What the client is configured with; times in milliseconds and seconds as the configuration has them. -/
structure TargetConfig where
  configuredHost : List Char
  staticGroundIp : List Char
  telemetryPort : ℤ
  commandPort : ℤ
  reconnectMs : ℤ
  rediscoverPeriodS : ℤ
  failoverGraceS : ℤ
deriving DecidableEq, Repr

/-- The constructor replaces a period that is not positive. -/
def TargetConfig.rediscoverSeconds (config : TargetConfig) : ℤ :=
  if config.rediscoverPeriodS > 0 then config.rediscoverPeriodS else 30

/-- The constructor replaces a grace that is not positive. -/
def TargetConfig.graceSeconds (config : TargetConfig) : ℤ :=
  if config.failoverGraceS > 0 then config.failoverGraceS else 5

/-- What a connection attempt dials, and the priority it counts as. -/
structure Target where
  host : List Char
  telemetryPort : ℤ
  commandPort : ℤ
  priority : ℤ
deriving DecidableEq, Repr

/-- How far an attempt to connect comes: no connection, one whose HELLO is not acknowledged, or one to use. -/
inductive DialOutcome where
  | unreachable
  | helloLost
  | connected
deriving DecidableEq, Repr

/-- The client, as far as it chooses whom to dial. The clock counts nanoseconds; `heard` holds every
advertisement, in the order they came. -/
structure TelemetryClient where
  config : TargetConfig
  now : ℕ
  commandPort : ℤ
  activeHost : List Char
  connected : Bool
  transmitEnabled : Bool
  nextConnectAttempt : ℕ
  connectBackoffMs : ℤ
  currentPriority : ℤ
  failoverCandidateHost : List Char
  failoverCandidatePriority : ℤ
  failoverFirstSeen : ℕ
  failoverRequested : Bool
  latestGs : Option GroundStationAdvert
  heard : List GroundStationAdvert
deriving DecidableEq, Repr

/-- A step: time passes, a datagram or a command peer is heard, the control loop sends a frame, an exchange fails,
a frame is too large for the link, or the transmitter is switched. -/
inductive TargetEvent where
  | wait (nanoseconds : ℕ)
  | datagram (line senderIp : List Char)
  | observe (host : List Char) (telemetryPort commandPort priority : ℤ)
  | sendFrame (room : Bool) (outcome : DialOutcome)
  | exchangeFailed
  | oversize
  | setTransmitEnabled (enabled : Bool)
deriving DecidableEq, Repr

/-- `TrimCrLf`. -/
def trimCrLf (line : List Char) : List Char := (line.reverse.dropWhile fun c => c = '\n' ∨ c = '\r').reverse

/-- Whole seconds of a time in nanoseconds. -/
def wholeSeconds (nanoseconds : ℕ) : ℕ := nanoseconds / 10 ^ 9

namespace TelemetryClient

/-- The client as it is built. -/
def new (config : TargetConfig) : TelemetryClient where
  config := config
  now := 0
  commandPort := config.commandPort
  activeHost := config.configuredHost
  connected := false
  transmitEnabled := true
  nextConnectAttempt := 0
  connectBackoffMs := 500
  currentPriority := 0
  failoverCandidateHost := []
  failoverCandidatePriority := 0
  failoverFirstSeen := 0
  failoverRequested := false
  latestGs := none
  heard := []

variable (c : TelemetryClient)

/-- An advertisement is heard and becomes the latest one. -/
def record (advert : GroundStationAdvert) : TelemetryClient :=
  { c with latestGs := some advert, heard := c.heard ++ [advert] }

/-- An advertisement is heard and not kept. -/
def ignore (advert : GroundStationAdvert) : TelemetryClient := { c with heard := c.heard ++ [advert] }

/-- The failover decision for a beacon: a station of a higher priority asks for a failover with its second beacon
within the grace. -/
def considerFailover (senderIp : List Char) (priority : ℤ) : TelemetryClient :=
  if c.connected ∧ senderIp ≠ c.activeHost ∧ priority > c.currentPriority then
    if c.failoverCandidateHost = senderIp ∧ c.failoverCandidatePriority = priority then
      if (wholeSeconds (c.now - c.failoverFirstSeen) : ℤ) ≤ c.config.graceSeconds then
        { c with failoverRequested := true }
      else c
    else
      { c with
        failoverCandidateHost := senderIp
        failoverCandidatePriority := priority
        failoverFirstSeen := c.now }
  else c

/-- `ProcessIncomingDiscoveryLine`, for a beacon whose three numbers can be read. -/
def processBeacon (senderIp : List Char) (tokens : List (List Char)) : TelemetryClient :=
  match stoi (tokens.getD 2 []), stoi (tokens.getD 3 []), stoi (tokens.getD 4 []) with
  | some tel, some cmd, some prio => (c.record ⟨senderIp, tel, cmd, prio, c.now⟩).considerFailover senderIp prio
  | _, _, _ => c

/-- The hello of an older ground station: an advertisement of priority zero, kept if the latest one is not of
another priority, however old that is. -/
def processHello (senderIp : List Char) (tokens : List (List Char)) : TelemetryClient :=
  match stoi (tokens.getD 2 []), stoi (tokens.getD 3 []) with
  | some tel, some cmd =>
    let advert : GroundStationAdvert := ⟨senderIp, tel, cmd, 0, c.now⟩
    if c.latestGs.all fun latest => latest.priority = 0 then c.record advert else c.ignore advert
  | _, _ => c

/-- `DiscoveryListenerLoop`: what a datagram tells. -/
def hearDatagram (line senderIp : List Char) : TelemetryClient :=
  let tokens := getlines ',' (trimCrLf (line.takeWhile (· ≠ '\x00')))
  if tokens.head? = some "GS_HELLO".toList ∧ 4 ≤ tokens.length then c.processHello senderIp tokens
  else if tokens.head? = some "GS_BEACON".toList ∧ 5 ≤ tokens.length then c.processBeacon senderIp tokens
  else c

/-- `AbortLocked`. -/
def abort : TelemetryClient := { c with connected := false }

/-- What a command peer does to the link: one of at least the priority of the link drops a connection to another
host, and is the active host of a link that is down. -/
def followPeer (host : List Char) (priority : ℤ) : TelemetryClient :=
  let c := if c.connected ∧ host ≠ c.activeHost ∧ priority ≥ c.currentPriority then c.abort else c
  if ¬c.connected ∧ (c.activeHost = [] ∨ priority ≥ c.currentPriority) then
    { c with activeHost := host, currentPriority := priority, connectBackoffMs := 500, nextConnectAttempt := 0 }
  else c

/-- `ObserveGroundStation`: a command peer. -/
def observeGroundStation (host : List Char) (telemetryPort commandPort priority : ℤ) : TelemetryClient :=
  if host = [] ∨ host = "0.0.0.0".toList then c
  else
    let advert : GroundStationAdvert := {
      host := host
      telemetryPort := if telemetryPort > 0 then telemetryPort else c.config.telemetryPort
      commandPort := if commandPort > 0 then commandPort else c.commandPort
      priority := priority
      lastSeen := c.now }
    (c.record advert).followPeer host priority

/-- An advertisement was heard within the rediscovery period. -/
def fresh (advert : GroundStationAdvert) : Bool :=
  decide ((wholeSeconds (c.now - advert.lastSeen) : ℤ) ≤ c.config.rediscoverSeconds)

/-- What there is to dial at the station of an advertisement. -/
def targetOf (advert : GroundStationAdvert) : Target where
  host := advert.host
  telemetryPort := if advert.telemetryPort > 0 then advert.telemetryPort else c.config.telemetryPort
  commandPort := if advert.commandPort > 0 then advert.commandPort else c.commandPort
  priority := advert.priority

/-- The static host, or the configured one. -/
def fixedTarget : Option Target :=
  if c.config.staticGroundIp ≠ [] then some ⟨c.config.staticGroundIp, c.config.telemetryPort, c.commandPort, 0⟩
  else if c.config.configuredHost ≠ [] then some ⟨c.config.configuredHost, c.config.telemetryPort, c.commandPort, 0⟩
  else none

/-- The advertisement that the next attempt goes by: the latest one, while it is fresh. -/
def pickAdvert : Option GroundStationAdvert := c.latestGs.filter c.fresh

/-- `PickTargetHostLocked`. -/
def pickTargetHost : Option Target :=
  match c.pickAdvert with
  | some advert => some (c.targetOf advert)
  | none => c.fixedTarget

/-- `ConnectLocked`: dial, and forget the failover once connected. -/
def connect (outcome : DialOutcome) : TelemetryClient :=
  match c.pickTargetHost with
  | none => c.abort
  | some target =>
    let c := { c with connected := false, currentPriority := target.priority }
    match outcome with
    | .unreachable => c
    | .helloLost | .connected =>
      { c with
        connected := decide (outcome = .connected)
        activeHost := target.host
        commandPort := target.commandPort
        failoverCandidateHost := []
        failoverCandidatePriority := 0
        failoverRequested := false }

/-- A failed attempt puts the next one off, twice as long each time. -/
def backOff (started : ℕ) : TelemetryClient :=
  let cap := max 500 c.config.reconnectMs
  { c with
    nextConnectAttempt := started + (min c.connectBackoffMs cap).toNat * 10 ^ 6
    connectBackoffMs := min (c.connectBackoffMs * 2) cap }

/-- A failover that was asked for drops the connection. -/
def honorFailover : TelemetryClient :=
  { c with connected := c.connected && !c.failoverRequested, failoverRequested := false }

/-- Without a connection one is attempted, if it is due and there is room for it. -/
def reconnect (room : Bool) (outcome : DialOutcome) : TelemetryClient :=
  if c.connected ∨ c.now < c.nextConnectAttempt ∨ room = false then c
  else if (c.connect outcome).connected then
    { c.connect outcome with connectBackoffMs := 500, nextConnectAttempt := 0 }
  else (c.connect outcome).backOff c.now

/-- `SendFrame`, up to where the link stands. -/
def sendFrame (room : Bool) (outcome : DialOutcome) : TelemetryClient :=
  if c.transmitEnabled = false then c.abort else c.honorFailover.reconnect room outcome

/-- One step of the client. -/
def step : TargetEvent → TelemetryClient
  | .wait nanoseconds => { c with now := c.now + nanoseconds }
  | .datagram line senderIp => c.hearDatagram line senderIp
  | .observe host telemetryPort commandPort priority => c.observeGroundStation host telemetryPort commandPort priority
  | .sendFrame room outcome => c.sendFrame room outcome
  | .exchangeFailed => c.abort
  | .oversize => { c.abort with nextConnectAttempt := c.now + 30 * 10 ^ 9 }
  | .setTransmitEnabled enabled =>
    let c := { c with transmitEnabled := enabled }
    if enabled then c else c.abort

/-- What a step makes of the advertisements: nothing new, a new one that is kept as the latest, or a hello that a
latest one of another priority keeps out. -/
inductive Hears (c c' : TelemetryClient) : Prop where
  | nothing (hlatest : c'.latestGs = c.latestGs) (hheard : c'.heard = c.heard)
  | kept (advert : GroundStationAdvert) (hlatest : c'.latestGs = some advert) (hheard : c'.heard = c.heard ++ [advert])
  | ignored (advert latest : GroundStationAdvert) (hhello : advert.priority = 0) (hfirst : c.latestGs = some latest)
      (hpriority : latest.priority ≠ 0) (hlatest : c'.latestGs = some latest) (hheard : c'.heard = c.heard ++ [advert])

/-- The latest advertisement is the last one heard, but for hellos that it kept out. -/
def Kept : Prop :=
  (c.latestGs = none ∧ c.heard = []) ∨
    ∃ before latest after, c.heard = before ++ latest :: after ∧ c.latestGs = some latest ∧
      ∀ advert ∈ after, advert.priority = 0 ∧ latest.priority ≠ 0

variable {c}

/-- The failover decision hears nothing. -/
theorem considerFailover_hears (senderIp : List Char) (priority : ℤ) :
    (c.considerFailover senderIp priority).latestGs = c.latestGs ∧
      (c.considerFailover senderIp priority).heard = c.heard := by
  unfold considerFailover
  split
  · split
    · split <;> exact ⟨rfl, rfl⟩
    · exact ⟨rfl, rfl⟩
  · exact ⟨rfl, rfl⟩

/-- A beacon becomes the latest advertisement. -/
theorem processBeacon_hears (senderIp : List Char) (tokens : List (List Char)) :
    Hears c (c.processBeacon senderIp tokens) := by
  unfold processBeacon
  split
  case h_1 tel cmd prio _ _ _ =>
    obtain ⟨hlatest, hheard⟩ :=
      considerFailover_hears (c := c.record ⟨senderIp, tel, cmd, prio, c.now⟩) senderIp prio
    exact .kept _ hlatest hheard
  case h_2 => exact .nothing rfl rfl

/-- A hello becomes the latest advertisement or is kept out. -/
theorem processHello_hears (senderIp : List Char) (tokens : List (List Char)) :
    Hears c (c.processHello senderIp tokens) := by
  unfold processHello
  split
  case h_1 tel cmd _ _ =>
    dsimp only
    split
    case isTrue => exact .kept _ rfl rfl
    case isFalse hother =>
      cases hlatest : c.latestGs with
      | none => simp [hlatest] at hother
      | some latest => exact .ignored _ latest rfl hlatest (by simpa [hlatest] using hother) hlatest rfl
  case h_2 => exact .nothing rfl rfl

/-- A datagram is a hello, a beacon, or nothing. -/
theorem hearDatagram_hears (line senderIp : List Char) : Hears c (c.hearDatagram line senderIp) := by
  unfold hearDatagram
  dsimp only
  split
  · exact processHello_hears _ _
  · split
    · exact processBeacon_hears _ _
    · exact .nothing rfl rfl

/-- What a command peer does to the link is not heard again. -/
theorem followPeer_hears (host : List Char) (priority : ℤ) :
    (c.followPeer host priority).latestGs = c.latestGs ∧ (c.followPeer host priority).heard = c.heard := by
  unfold followPeer
  split <;> dsimp only <;> split <;> exact ⟨rfl, rfl⟩

/-- A command peer becomes the latest advertisement. -/
theorem observeGroundStation_hears (host : List Char) (telemetryPort commandPort priority : ℤ) :
    Hears c (c.observeGroundStation host telemetryPort commandPort priority) := by
  unfold observeGroundStation
  split
  · exact .nothing rfl rfl
  · obtain ⟨hlatest, hheard⟩ := followPeer_hears (c := c.record _) host priority
    exact .kept _ hlatest hheard

/-- An attempt to connect hears nothing. -/
theorem connect_hears (outcome : DialOutcome) :
    (c.connect outcome).latestGs = c.latestGs ∧ (c.connect outcome).heard = c.heard := by
  unfold connect
  split
  · exact ⟨rfl, rfl⟩
  · cases outcome <;> exact ⟨rfl, rfl⟩

/-- Putting the next attempt off hears nothing. -/
theorem backOff_hears (started : ℕ) :
    (c.backOff started).latestGs = c.latestGs ∧ (c.backOff started).heard = c.heard := by
  unfold backOff
  exact ⟨rfl, rfl⟩

/-- Connecting when it is due hears nothing. -/
theorem reconnect_hears (room : Bool) (outcome : DialOutcome) :
    (c.reconnect room outcome).latestGs = c.latestGs ∧ (c.reconnect room outcome).heard = c.heard := by
  unfold reconnect
  split
  · exact ⟨rfl, rfl⟩
  · split
    · exact connect_hears outcome
    · rw [(backOff_hears c.now).1, (backOff_hears c.now).2]
      exact connect_hears outcome

/-- Sending a frame hears nothing. -/
theorem sendFrame_hears (room : Bool) (outcome : DialOutcome) :
    (c.sendFrame room outcome).latestGs = c.latestGs ∧ (c.sendFrame room outcome).heard = c.heard := by
  unfold sendFrame
  split
  · exact ⟨rfl, rfl⟩
  · rw [(reconnect_hears room outcome).1, (reconnect_hears room outcome).2]
    exact ⟨rfl, rfl⟩

/-- What every step makes of the advertisements. -/
theorem step_hears (c : TelemetryClient) (event : TargetEvent) : Hears c (c.step event) := by
  cases event with
  | wait nanoseconds => exact .nothing rfl rfl
  | datagram line senderIp => exact hearDatagram_hears line senderIp
  | observe host telemetryPort commandPort priority =>
    exact observeGroundStation_hears host telemetryPort commandPort priority
  | sendFrame room outcome =>
    obtain ⟨hlatest, hheard⟩ := sendFrame_hears (c := c) room outcome
    exact .nothing hlatest hheard
  | exchangeFailed => exact .nothing rfl rfl
  | oversize => exact .nothing rfl rfl
  | setTransmitEnabled enabled => cases enabled <;> exact .nothing rfl rfl

/-- Every step keeps the latest advertisement where it is among the ones heard. -/
theorem Kept.of_hears {c' : TelemetryClient} (h : c.Kept) (hhears : Hears c c') : c'.Kept := by
  cases hhears with
  | nothing hlatest hheard => rwa [Kept, hlatest, hheard]
  | kept advert hlatest hheard => exact Or.inr ⟨c.heard, advert, [], hheard, hlatest, by simp⟩
  | ignored advert latest hhello hfirst hpriority hlatest hheard =>
    rcases h with ⟨hnone, _⟩ | ⟨before, kept, after, hsplit, hkept, hafter⟩
    · rw [hnone] at hfirst
      cases hfirst
    · obtain rfl : kept = latest := Option.some.inj (hkept.symm.trans hfirst)
      refine Or.inr ⟨before, kept, after ++ [advert], by rw [hheard, hsplit]; simp, hlatest, fun other hother => ?_⟩
      rcases List.mem_append.mp hother with hold | hnew
      · exact hafter other hold
      · exact List.mem_singleton.mp hnew ▸ ⟨hhello, hpriority⟩

/-- In every run the latest advertisement is the last one heard, but for hellos that it kept out. -/
theorem run_kept (config : TargetConfig) (events : List TargetEvent) : (run step (new config) events).Kept :=
  (holds_of_step (fun c event h => Kept.of_hears h (step_hears c event)) (fun _ h => h) (Or.inl ⟨rfl, rfl⟩)
    events).last

/-- The latest advertisement is among the ones heard. -/
theorem Kept.mem {latest : GroundStationAdvert} (h : c.Kept) (hlatest : c.latestGs = some latest) :
    latest ∈ c.heard := by
  rcases h with ⟨hnone, _⟩ | ⟨before, kept, after, hsplit, hkept, _⟩
  · rw [hnone] at hlatest
    cases hlatest
  · obtain rfl : kept = latest := Option.some.inj (hkept.symm.trans hlatest)
    rw [hsplit]
    exact List.mem_append_right _ List.mem_cons_self

/-- A client of the default periods without a fixed host. -/
def benchTarget : TargetConfig := ⟨[], [], 4000, 5000, 2000, 30, 5⟩

end TelemetryClient

end Coatheal.Link
