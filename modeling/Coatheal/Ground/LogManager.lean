import Coatheal.Ground.Layout
import Coatheal.Library.Run

/-!
# The logs of the sessions

The ground station keeps a directory for each session of the onboard and appends to its files. A session's
writers live as objects: they are made when a record of the session comes in and none is open for it, and
closed when more than two sessions are open. Commands and events go to the live session's files and wait
while there is none. Calls come one after the other, each under the lock, and closing is the last of them.
The text of a row, the times of the metadata and failing files are left out, and so is the numbered sibling
that stands in for a file of an older layout.
-/

namespace Coatheal.Ground

open Library Library.Text Library.PyText

/-- The epoch of `_SESSION_ID_RE`: nine to eleven digits after a name and a hyphen, and perhaps a process id
after another. -/
def sessionEpoch (sessionId : List Char) : Option ℕ :=
  match cut '-' (strip sessionId) with
  | none => none
  | some (name, rest) =>
    let (epoch, pid) := match cut '-' rest with
      | none => (rest, none)
      | some (epoch, pid) => (epoch, some pid)
    let isDecimal := fun text : List Char => text.all fun c => (decimalValue c).isSome
    let named := (name.head?.any fun c => c.isAlpha) && name.all fun c => c.isAlphanum
    if named && decide (9 ≤ epoch.length ∧ epoch.length ≤ 11) && isDecimal epoch &&
        pid.all fun digits => digits ≠ [] && isDecimal digits then some (digitsNat epoch) else none

/-- The `re.sub` of `safe_component`: an underscore for each run of other characters. -/
def sanitize (inRun : Bool) : List Char → List Char
  | [] => []
  | c :: rest =>
    if c.isAlphanum || c = '.' || c = '_' || c = '-' then c :: sanitize false rest
    else if inRun then sanitize true rest else '_' :: sanitize true rest

/-- `safe_component`. -/
def safeComponent (text : List Char) : List Char :=
  let cleaned := (sanitize false (strip text)).take 80
  if cleaned = [] then "unknown".toList else cleaned

/-- The name of a session's directory: a second, written as its date and time, and a text. -/
structure DirName where
  second : ℕ
  component : List Char
deriving DecidableEq

/-- `session_dir_name`. -/
def sessionDirName (sessionId : List Char) (now : ℕ) : DirName :=
  ⟨(sessionEpoch sessionId).getD now, safeComponent sessionId⟩

/-- What `session.json` says. -/
structure Meta where
  sessionId : List Char
  firstFrameUtc : Option (List Char)
  lastFrameUtc : Option (List Char)
  firstSeq : Option ℤ
  lastSeq : Option ℤ
  frames : ℕ
  pulls : ℕ
  commands : ℕ
  layout : Option Layout
deriving DecidableEq

/-- A command with what came back. -/
structure CommandRecord where
  command : List Char
  ok : Bool
  latencyMs : Double
  body : List Char
  raw : List Char
  tsUtc : List Char
deriving DecidableEq

/-- An event of the operator's log. -/
structure EventRecord where
  level : List Char
  message : List Char
  tsUtc : List Char
deriving DecidableEq

/-- What is appended to the files of a directory. -/
inductive Line where
  | row (packet : TelemetryPacket) (rxUtc : List Char)
  | pull (event : PullEvent) (rxUtc : List Char)
  | command (record : CommandRecord)
  | event (record : EventRecord)
deriving DecidableEq

/-- The files: what this process appended, in order, and the metadata that is there. -/
structure Disk where
  lines : List (DirName × Line)
  metas : DirName → Option Meta

/-- The writers of a session, and which of its files they have open. -/
structure SessionLogs where
  dir : DirName
  sessionId : List Char
  telemetryOpen : Bool
  pullsOpen : Bool
  commandsOpen : Bool
  eventsOpen : Bool
  data : Meta

namespace SessionLogs

/-- `_write_meta`. -/
def writeMeta (s : SessionLogs) (disk : Disk) : Disk :=
  { disk with metas := Function.update disk.metas s.dir (some s.data) }

/-- `SessionLogs`, as it is made. -/
def new (dir : DirName) (sessionId : List Char) : SessionLogs :=
  ⟨dir, sessionId, false, false, false, false, ⟨sessionId, none, none, none, none, 0, 0, 0, none⟩⟩

/-- A line is appended. -/
def append (s : SessionLogs) (line : Line) (disk : Disk) : Disk := { disk with lines := disk.lines ++ [(s.dir, line)] }

/-- `META_EVERY`. -/
def metaEvery : ℕ := 300

/-- `write_packet`. -/
def writePacket (packet : TelemetryPacket) (rxUtc : List Char) (s : SessionLogs) (disk : Disk) : SessionLogs × Disk :=
  let disk := s.append (.row packet rxUtc) disk
  let counted := { s.data with frames := s.data.frames + 1, lastFrameUtc := some rxUtc, lastSeq := some packet.seq }
  if s.data.firstFrameUtc = none then
    let s := { s with
      telemetryOpen := true, data := { counted with firstFrameUtc := some rxUtc, firstSeq := some packet.seq } }
    (s, s.writeMeta disk)
  else
    let s := { s with telemetryOpen := true, data := counted }
    (s, if s.data.frames % metaEvery = 0 then s.writeMeta disk else disk)

/-- `write_pull`. -/
def writePull (event : PullEvent) (rxUtc : List Char) (s : SessionLogs) (disk : Disk) : SessionLogs × Disk :=
  ({ s with pullsOpen := true, data := { s.data with pulls := s.data.pulls + 1 } }, s.append (.pull event rxUtc) disk)

/-- `write_command`. -/
def writeCommand (record : CommandRecord) (s : SessionLogs) (disk : Disk) : SessionLogs × Disk :=
  ({ s with commandsOpen := true, data := { s.data with commands := s.data.commands + 1 } },
    s.append (.command record) disk)

/-- `write_event`. -/
def writeEvent (record : EventRecord) (s : SessionLogs) (disk : Disk) : SessionLogs × Disk :=
  ({ s with eventsOpen := true }, s.append (.event record) disk)

/-- `set_layout`. -/
def setLayout (layout : Layout) (s : SessionLogs) (disk : Disk) : SessionLogs × Disk :=
  let s := { s with data := { s.data with layout := some layout } }
  (s, s.writeMeta disk)

/-- `close`. -/
def close (s : SessionLogs) (disk : Disk) : SessionLogs × Disk :=
  ({ s with telemetryOpen := false, pullsOpen := false, commandsOpen := false, eventsOpen := false }, s.writeMeta disk)

/-- No file is open. -/
def Shut (s : SessionLogs) : Prop :=
  s.telemetryOpen = false ∧ s.pullsOpen = false ∧ s.commandsOpen = false ∧ s.eventsOpen = false

end SessionLogs

/-- `LogManager`, with the writers it has made; `opened` and `logs` point to some of them. -/
structure LogManager where
  bufferLimit : ℕ
  started : ℕ
  objects : List SessionLogs
  opened : List (List Char × ℕ)
  logs : Option ℕ
  pendingCommands : List CommandRecord
  pendingEvents : List EventRecord
  closed : Bool
  disk : Disk

namespace LogManager

/-- The manager before the first call. -/
def new (bufferLimit started : ℕ) (metas : DirName → Option Meta) : LogManager :=
  ⟨bufferLimit, started, [], [], none, [], [], false, ⟨[], metas⟩⟩

/-- Something is written by one of the writers. -/
def withLogs (m : LogManager) (i : ℕ) (write : SessionLogs → Disk → SessionLogs × Disk) : LogManager :=
  match m.objects[i]? with
  | none => m
  | some s => { m with objects := m.objects.set i (write s m.disk).1, disk := (write s m.disk).2 }

/-- New writers. -/
def make (m : LogManager) (dir : DirName) (sessionId : List Char) : LogManager × ℕ :=
  let s := SessionLogs.new dir sessionId
  ({ m with objects := m.objects ++ [s], disk := s.writeMeta m.disk }, m.objects.length)

/-- The epoch that sessions go by, zero for an id without one. -/
def epochOf (sessionId : List Char) : ℕ := (sessionEpoch sessionId).getD 0

/-- A text comes before another, by code points. -/
def textBefore : List Char → List Char → Bool
  | _, [] => false
  | [], _ :: _ => true
  | c :: first, d :: second => c.toNat < d.toNat || (c.toNat == d.toNat && textBefore first second)

/-- A session comes before another: by epoch, and then by id. -/
def before (first second : List Char) : Bool :=
  epochOf first < epochOf second || (epochOf first == epochOf second && textBefore first second)

/-- The oldest of the open sessions. -/
def oldest : List (List Char × ℕ) → Option (List Char × ℕ)
  | [] => none
  | entry :: rest => some (rest.foldl (fun best other => if before other.1 best.1 then other else best) entry)

/-- The session of writers. -/
def sessionOf (m : LogManager) (i : ℕ) : List Char := (m.objects[i]?.map SessionLogs.sessionId).getD []

/-- The live session. -/
def liveSession (m : LogManager) : Option (List Char) := m.logs.map m.sessionOf

/-- The loop in `_logs_for` that closes the oldest sessions while more than two are open, up to the live one. -/
def closeOldest : ℕ → LogManager → LogManager
  | 0, m => m
  | fuel + 1, m =>
    if m.opened.length ≤ 2 then m
    else
      match oldest m.opened with
      | none => m
      | some entry =>
        if m.liveSession = some entry.1 then m
        else closeOldest fuel
          ({ m with opened := m.opened.filter fun other => other.1 ≠ entry.1 }.withLogs entry.2 SessionLogs.close)

/-- `_flush_pending`. -/
def flushPending (m : LogManager) (i : ℕ) : LogManager :=
  let m := m.pendingEvents.foldl (fun m record => m.withLogs i (SessionLogs.writeEvent record))
    { m with pendingEvents := [] }
  m.pendingCommands.foldl (fun m record => m.withLogs i (SessionLogs.writeCommand record))
    { m with pendingCommands := [] }

/-- The new session becomes the live one unless it is older than that. -/
def live (m : LogManager) (i : ℕ) (sessionId : List Char) : LogManager :=
  match m.liveSession with
  | none => { m with logs := some i }.flushPending i
  | some current => if epochOf current ≤ epochOf sessionId then { m with logs := some i } else m

/-- A session is opened. -/
def openSession (m : LogManager) (sessionId : List Char) (now : ℕ) : LogManager × ℕ :=
  let (m, i) := m.make (sessionDirName sessionId now) sessionId
  let m := { m with opened := m.opened ++ [(sessionId, i)] }.live i sessionId
  (m.closeOldest m.opened.length, i)

/-- `_logs_for`: the writers of a session, and whether they are new. -/
def logsFor (m : LogManager) (sessionId : List Char) (now : ℕ) : LogManager × ℕ × Bool :=
  match m.opened.find? fun entry => entry.1 = sessionId with
  | some entry => (m, entry.2, false)
  | none =>
    let (m, i) := m.openSession sessionId now
    (m, i, true)

/-- `on_packet`, and whether a directory was opened. -/
def onPacket (m : LogManager) (packet : TelemetryPacket) (rxUtc : List Char) (now : ℕ) : LogManager × Bool :=
  if m.closed then (m, false)
  else
    let (m, i, opened) := m.logsFor packet.sessionId now
    (m.withLogs i (SessionLogs.writePacket packet rxUtc), opened)

/-- `on_pull`. -/
def onPull (m : LogManager) (event : PullEvent) (rxUtc : List Char) (now : ℕ) : LogManager :=
  if m.closed then m
  else
    let (m, i, _) := m.logsFor event.sessionId now
    m.withLogs i (SessionLogs.writePull event rxUtc)

/-- Append to a `deque` of limited length. -/
def pushLimited {α : Type} (limit : ℕ) (queue : List α) (record : α) : List α :=
  (queue ++ [record]).drop (queue.length + 1 - limit)

/-- `log_command`. -/
def logCommand (m : LogManager) (record : CommandRecord) : LogManager :=
  if m.closed then m
  else
    match m.logs with
    | none => { m with pendingCommands := pushLimited m.bufferLimit m.pendingCommands record }
    | some i => m.withLogs i (SessionLogs.writeCommand record)

/-- `log_event`. -/
def logEvent (m : LogManager) (record : EventRecord) : LogManager :=
  if m.closed then m
  else
    match m.logs with
    | none => { m with pendingEvents := pushLimited m.bufferLimit m.pendingEvents record }
    | some i => m.withLogs i (SessionLogs.writeEvent record)

/-- `record_layout`. -/
def recordLayout (m : LogManager) (sessionId : List Char) (layout : Layout) : LogManager :=
  match m.opened.find? fun entry => entry.1 = sessionId with
  | none => m
  | some entry => if m.closed then m else m.withLogs entry.2 (SessionLogs.setLayout layout)

/-- The first part of `close`: the sessions other than the live one. -/
def closeOthers (m : LogManager) : LogManager :=
  m.opened.foldl (fun m entry =>
    if m.logs = some entry.2 then m
    else { m with opened := m.opened.filter fun other => other.1 ≠ entry.1 }.withLogs entry.2 SessionLogs.close) m

/-- `close`. -/
def close (m : LogManager) : LogManager :=
  let m := m.closeOthers
  if m.closed then m
  else
    let m := { m with closed := true }
    match m.logs with
    | some i => { m.withLogs i SessionLogs.close with logs := none }
    | none =>
      if m.pendingCommands = [] ∧ m.pendingEvents = [] then m
      else
        let (m, i) := m.make ⟨m.started, "no-session".toList⟩ []
        (m.flushPending i).withLogs i SessionLogs.close

end LogManager

/-- A call of the manager before it is closed, with the time of those that may open a directory. -/
inductive Call where
  | packet (packet : TelemetryPacket) (rxUtc : List Char) (now : ℕ)
  | pull (event : PullEvent) (rxUtc : List Char) (now : ℕ)
  | command (record : CommandRecord)
  | event (record : EventRecord)
  | layout (sessionId : List Char) (layout : Layout)

/-- A call is served. -/
def LogManager.step (m : LogManager) : Call → LogManager
  | .packet packet rxUtc now => (m.onPacket packet rxUtc now).1
  | .pull event rxUtc now => m.onPull event rxUtc now
  | .command record => m.logCommand record
  | .event record => m.logEvent record
  | .layout sessionId layout => m.recordLayout sessionId layout

end Coatheal.Ground
