import Coatheal.Ground.LogManager
import Mathlib.Data.List.Nodup

/-!
# Complete and truthful logs

Each session's rows are in one directory, and its metadata counts them, as long as a session is opened once:
its writers stay open until it is done with, and no other session has its directory. Writers that are made
again for a session start counting anew, and those that are closed as they are made leave a file open.
-/

namespace Coatheal.Ground

open Library

/-- The session that a call may open. -/
def Call.session? : Call → Option (List Char)
  | .packet received _ _ => some received.sessionId
  | .pull received _ _ => some received.sessionId
  | _ => none

/-- The packets of calls, with the times they came in. -/
def packetsOf (calls : List Call) : List (TelemetryPacket × List Char) := calls.filterMap fun
  | .packet packet rxUtc _ => some (packet, rxUtc)
  | _ => none

/-- The commands of calls. -/
def commandsOf (calls : List Call) : List CommandRecord := calls.filterMap fun
  | .command record => some record
  | _ => none

/-- The events of calls. -/
def eventsOf (calls : List Call) : List EventRecord := calls.filterMap fun
  | .event record => some record
  | _ => none

/-- The calls before the first session. -/
def early (calls : List Call) : List Call := calls.takeWhile fun call => call.session?.isNone

/-- The rows of packets, with the directories they are in. -/
def Disk.rows (disk : Disk) : List (DirName × TelemetryPacket × List Char) := disk.lines.filterMap fun
  | (dir, .row packet rxUtc) => some (dir, packet, rxUtc)
  | _ => none

/-- The rows of commands. -/
def Disk.commands (disk : Disk) : List CommandRecord := disk.lines.filterMap fun
  | (_, .command record) => some record
  | _ => none

/-- The lines of events. -/
def Disk.events (disk : Disk) : List EventRecord := disk.lines.filterMap fun
  | (_, .event record) => some record
  | _ => none

/-- The metadata counts the packets of its session. -/
structure Meta.Counts (data : Meta) (session : List Char) (packets : List TelemetryPacket) : Prop where
  sessionId : data.sessionId = session
  frames : data.frames = packets.length
  firstSeq : data.firstSeq = packets.head?.map TelemetryPacket.seq
  lastSeq : data.lastSeq = packets.getLast?.map TelemetryPacket.seq

/-- The packets of a session. -/
def packetsIn (session : List Char) (calls : List Call) : List TelemetryPacket :=
  ((packetsOf calls).map Prod.fst).filter fun packet => packet.sessionId = session

/-- The logs of calls, when each session has a directory of its own: every packet is one row there, which its
metadata counts, every command and every event is there once, if those before the first session were not too
many, and no file is open. -/
structure Kept (m : LogManager) (calls : List Call) (home : List Char → DirName) : Prop where
  apart : ∀ first ∈ calls.filterMap Call.session?, ∀ second ∈ calls.filterMap Call.session?,
    home first = home second → first = second
  rows : m.disk.rows = (packetsOf calls).map fun packet => (home packet.1.sessionId, packet)
  metas : ∀ session ∈ calls.filterMap Call.session?,
    ∃ data, m.disk.metas (home session) = some data ∧ data.Counts session (packetsIn session calls)
  commands : (commandsOf (early calls)).length ≤ m.bufferLimit → m.disk.commands = commandsOf calls
  events : (eventsOf (early calls)).length ≤ m.bufferLimit → m.disk.events = eventsOf calls
  shut : ∀ s ∈ m.objects, s.Shut

/-- The logs are complete and truthful. -/
def Complete (m : LogManager) (calls : List Call) : Prop := ∃ home, Kept m calls home

/-- A session that is not open is opened well: it is opened for the first time, into a directory that no other
session has, and is no older than the live session, or at least not the oldest of the open ones. -/
structure OpensWell (m : LogManager) (session : List Char) (now : ℕ) : Prop where
  fresh : ∀ s ∈ m.objects, s.sessionId ≠ session
  apart : ∀ s ∈ m.objects, s.dir ≠ sessionDirName session now
  stays : ∀ live ∈ m.liveSession, LogManager.epochOf live ≤ LogManager.epochOf session ∨
    ∀ entry ∈ m.opened, entry.1 = live ∨ LogManager.before entry.1 session = true

/-- A call finds its session open, or opens it well. -/
def OpensOnce (m : LogManager) : Call → Prop
  | .packet packet _ now => (∃ entry ∈ m.opened, entry.1 = packet.sessionId) ∨ OpensWell m packet.sessionId now
  | .pull event _ now => (∃ entry ∈ m.opened, entry.1 = event.sessionId) ∨ OpensWell m event.sessionId now
  | _ => True

/-- What a writer does to its own metadata: it stays in its place. -/
structure InPlace (write : SessionLogs → Disk → SessionLogs × Disk) : Prop where
  dir : ∀ s disk, (write s disk).1.dir = s.dir
  sessionId : ∀ s disk, (write s disk).1.sessionId = s.sessionId
  metas : ∀ s disk dir, dir ≠ s.dir → (write s disk).2.metas dir = disk.metas dir

/-- Metadata is written in its own directory. -/
theorem SessionLogs.writeMeta_metas (s : SessionLogs) (disk : Disk) {dir : DirName} (h : dir ≠ s.dir) :
    (s.writeMeta disk).metas dir = disk.metas dir := Function.update_of_ne h _ _

/-- Packets are written in place. -/
theorem writePacket_inPlace (packet : TelemetryPacket) (rxUtc : List Char) :
    InPlace (SessionLogs.writePacket packet rxUtc) := by
  refine ⟨fun s disk => ?_, fun s disk => ?_, fun s disk dir hdir => ?_⟩
  all_goals
    unfold SessionLogs.writePacket
    dsimp only
    split
  · rfl
  · rfl
  · rfl
  · rfl
  · exact SessionLogs.writeMeta_metas _ _ hdir
  · dsimp only
    split
    · exact SessionLogs.writeMeta_metas _ _ hdir
    · rfl

/-- So are the other records. -/
theorem writePull_inPlace (event : PullEvent) (rxUtc : List Char) : InPlace (SessionLogs.writePull event rxUtc) :=
  ⟨fun _ _ => rfl, fun _ _ => rfl, fun _ _ _ _ => rfl⟩

/-- So are commands. -/
theorem writeCommand_inPlace (record : CommandRecord) : InPlace (SessionLogs.writeCommand record) :=
  ⟨fun _ _ => rfl, fun _ _ => rfl, fun _ _ _ _ => rfl⟩

/-- So are events. -/
theorem writeEvent_inPlace (record : EventRecord) : InPlace (SessionLogs.writeEvent record) :=
  ⟨fun _ _ => rfl, fun _ _ => rfl, fun _ _ _ _ => rfl⟩

/-- So are layouts. -/
theorem setLayout_inPlace (layout : Layout) : InPlace (SessionLogs.setLayout layout) :=
  ⟨fun _ _ => rfl, fun _ _ => rfl, fun _ _ _ hdir => SessionLogs.writeMeta_metas _ _ hdir⟩

/-- Closing is done in place. -/
theorem close_inPlace : InPlace SessionLogs.close :=
  ⟨fun _ _ => rfl, fun _ _ => rfl, fun _ _ _ hdir => SessionLogs.writeMeta_metas _ _ hdir⟩

/-- The tables of a manager: each session has one directory of its own, the open ones are found by their ids, and
writers that are not open are shut, with their metadata on the disk. -/
structure Tables (m : LogManager) : Prop where
  sessions : (m.objects.map SessionLogs.sessionId).Nodup
  dirs : (m.objects.map SessionLogs.dir).Nodup
  keys : (m.opened.map Prod.fst).Nodup
  opened : ∀ entry ∈ m.opened, ∃ s, m.objects[entry.2]? = some s ∧ s.sessionId = entry.1
  shut : ∀ (i : ℕ) s, m.objects[i]? = some s → (s.sessionId, i) ∈ m.opened ∨ s.Shut ∧ m.disk.metas s.dir = some s.data

/-- What differs between any two writers tells their places apart. -/
theorem place_of_nodup {objects : List SessionLogs} {α : Type} {f : SessionLogs → α} (h : (objects.map f).Nodup)
    {i j : ℕ} {s t : SessionLogs} (hi : objects[i]? = some s) (hj : objects[j]? = some t) (hsame : f s = f t) :
    i = j := by
  have hlt : i < (objects.map f).length := by
    rw [List.length_map]
    exact (List.getElem?_eq_some_iff.mp hi).1
  refine (List.getElem?_inj hlt h).mp ?_
  rw [List.getElem?_map, List.getElem?_map, hi, hj, Option.map_some, Option.map_some, hsame]

/-- What is written by the writers at a place. -/
theorem withLogs_eq {m : LogManager} {i : ℕ} {s : SessionLogs} (h : m.objects[i]? = some s)
    (write : SessionLogs → Disk → SessionLogs × Disk) : m.withLogs i write =
      { m with objects := m.objects.set i (write s m.disk).1, disk := (write s m.disk).2 } := by
  unfold LogManager.withLogs
  rw [h]

/-- The writers after something was written at a place. -/
theorem getElem?_withLogs {m : LogManager} {i : ℕ} {s : SessionLogs} (h : m.objects[i]? = some s)
    (write : SessionLogs → Disk → SessionLogs × Disk) (j : ℕ) :
    (m.withLogs i write).objects[j]? = if i = j then some (write s m.disk).1 else m.objects[j]? := by
  rw [withLogs_eq h]
  dsimp only
  rw [List.getElem?_set]
  by_cases heq : i = j
  · rw [if_pos heq, if_pos heq, if_pos (heq ▸ (List.getElem?_eq_some_iff.mp h).1)]
  · rw [if_neg heq, if_neg heq]

/-- What a writing keeps of its writers is kept of all of them. -/
theorem withLogs_map {m : LogManager} {write : SessionLogs → Disk → SessionLogs × Disk} {α : Type}
    {f : SessionLogs → α} (hf : ∀ s disk, f (write s disk).1 = f s) (i : ℕ) :
    (m.withLogs i write).objects.map f = m.objects.map f := by
  cases hs : m.objects[i]? with
  | none =>
    unfold LogManager.withLogs
    rw [hs]
  | some s =>
    refine List.ext_getElem? fun j => ?_
    rw [List.getElem?_map, List.getElem?_map, getElem?_withLogs hs]
    split
    case isTrue heq => rw [← heq, hs, Option.map_some, Option.map_some, hf]
    case isFalse => rfl

/-- The writers without what is not counted: their open files, and the records that are no packets. -/
def SessionLogs.bare (s : SessionLogs) : SessionLogs :=
  { SessionLogs.new s.dir s.sessionId with
    data := ⟨s.data.sessionId, s.data.firstFrameUtc, none, s.data.firstSeq, s.data.lastSeq, s.data.frames, 0, 0, none⟩ }

/-- What a manager has counted. -/
def LogManager.book (m : LogManager) : List SessionLogs := m.objects.map SessionLogs.bare

/-- A place of the same book has writers for the same session. -/
theorem exists_of_book {m m' : LogManager} (h : m'.book = m.book) {i : ℕ} {s : SessionLogs}
    (hi : m.objects[i]? = some s) : ∃ s', m'.objects[i]? = some s' ∧ s'.sessionId = s.sessionId ∧ s'.dir = s.dir := by
  have hbook : m'.book[i]? = m.book[i]? := by rw [h]
  unfold LogManager.book at hbook
  rw [List.getElem?_map, List.getElem?_map, hi] at hbook
  obtain ⟨s', hs', hbare⟩ := Option.map_eq_some_iff.mp hbook
  have hsession : s'.bare.sessionId = s.bare.sessionId := congrArg SessionLogs.sessionId hbare
  have hdir : s'.bare.dir = s.bare.dir := congrArg SessionLogs.dir hbare
  exact ⟨s', hs', hsession, hdir⟩

/-- The session of the writers at a place is that of the book. -/
theorem sessionOf_eq (m : LogManager) (i : ℕ) :
    m.sessionOf i = (m.book[i]?.map SessionLogs.sessionId).getD [] := by
  unfold LogManager.sessionOf LogManager.book
  rw [List.getElem?_map, Option.map_map]
  rfl

/-- The live session is that of the book. -/
theorem liveSession_congr {m m' : LogManager} (hlogs : m'.logs = m.logs) (hbook : m'.book = m.book) :
    m'.liveSession = m.liveSession := by
  unfold LogManager.liveSession
  rw [hlogs]
  congr 1
  funext i
  rw [sessionOf_eq, sessionOf_eq, hbook]

/-- What is written in place by open writers leaves the tables as they are. -/
theorem Tables.withLogs {m : LogManager} (h : Tables m) {write : SessionLogs → Disk → SessionLogs × Disk}
    (hwrite : InPlace write) {i : ℕ} {s : SessionLogs} (hi : m.objects[i]? = some s)
    (hopen : ∃ entry ∈ m.opened, entry.2 = i) : Tables (m.withLogs i write) := by
  have hopened : (m.withLogs i write).opened = m.opened := by rw [withLogs_eq hi]
  have hmetas (dir : DirName) (hdir : dir ≠ s.dir) : (m.withLogs i write).disk.metas dir = m.disk.metas dir := by
    rw [withLogs_eq hi]
    exact hwrite.metas _ _ _ hdir
  refine ⟨(withLogs_map hwrite.sessionId i).symm ▸ h.sessions, (withLogs_map hwrite.dir i).symm ▸ h.dirs,
    hopened.symm ▸ h.keys, fun entry hentry => ?_, fun j t hj => ?_⟩
  · rw [hopened] at hentry
    obtain ⟨t, ht, hsession⟩ := h.opened entry hentry
    rw [getElem?_withLogs hi]
    split
    case isTrue heq =>
      rw [← heq, hi] at ht
      obtain rfl := Option.some.inj ht
      exact ⟨_, rfl, (hwrite.sessionId _ _).trans hsession⟩
    case isFalse => exact ⟨t, ht, hsession⟩
  · rw [getElem?_withLogs hi] at hj
    rw [hopened]
    split at hj
    case isTrue heq =>
      obtain rfl := Option.some.inj hj
      obtain ⟨entry, hentry, hplace⟩ := hopen
      obtain ⟨t, ht, hsession⟩ := h.opened entry hentry
      rw [hplace, hi] at ht
      obtain rfl := Option.some.inj ht
      rw [hwrite.sessionId, hsession, ← heq, ← hplace]
      exact Or.inl hentry
    case isFalse hne =>
      refine (h.shut j t hj).imp_right fun hshut => ⟨hshut.1, ?_⟩
      rw [hmetas _ fun hsame => hne (place_of_nodup h.dirs hi hj hsame.symm)]
      exact hshut.2

/-- A record that is not counted is written to some lines of the directory. -/
structure Uncounted (write : SessionLogs → Disk → SessionLogs × Disk) (lines : List Line) : Prop where
  place : InPlace write
  bare : ∀ s disk, (write s disk).1.bare = s.bare
  lines : ∀ s disk, (write s disk).2.lines = disk.lines ++ lines.map fun line => (s.dir, line)

/-- A pull is not counted. -/
theorem uncounted_writePull (event : PullEvent) (rxUtc : List Char) :
    Uncounted (SessionLogs.writePull event rxUtc) [.pull event rxUtc] :=
  ⟨writePull_inPlace event rxUtc, fun _ _ => rfl, fun _ _ => rfl⟩

/-- Nor is a command. -/
theorem uncounted_writeCommand (record : CommandRecord) :
    Uncounted (SessionLogs.writeCommand record) [.command record] :=
  ⟨writeCommand_inPlace record, fun _ _ => rfl, fun _ _ => rfl⟩

/-- Nor is an event. -/
theorem uncounted_writeEvent (record : EventRecord) : Uncounted (SessionLogs.writeEvent record) [.event record] :=
  ⟨writeEvent_inPlace record, fun _ _ => rfl, fun _ _ => rfl⟩

/-- Nor is a layout, which has no line. -/
theorem uncounted_setLayout (layout : Layout) : Uncounted (SessionLogs.setLayout layout) [] :=
  ⟨setLayout_inPlace layout, fun _ _ => rfl, fun _ _ => (List.append_nil _).symm⟩

/-- Nor is there one for closing. -/
theorem uncounted_close : Uncounted SessionLogs.close [] :=
  ⟨close_inPlace, fun _ _ => rfl, fun _ _ => (List.append_nil _).symm⟩

/-- Something that is not counted was written by the writers at a place. -/
structure Wrote (i : ℕ) (m m' : LogManager) (added : List (DirName × Line)) : Prop where
  tables : Tables m → (∃ entry ∈ m.opened, entry.2 = i) → Tables m'
  book : m'.book = m.book
  lines : m'.disk.lines = m.disk.lines ++ added
  same : m' = { m with objects := m'.objects, disk := m'.disk }

/-- Something that is not counted is written. -/
theorem Uncounted.wrote {m : LogManager} {write : SessionLogs → Disk → SessionLogs × Disk} {lines : List Line}
    (hwrite : Uncounted write lines) {i : ℕ} {s : SessionLogs} (hi : m.objects[i]? = some s) :
    Wrote i m (m.withLogs i write) (lines.map fun line => (s.dir, line)) := by
  refine ⟨fun htables => htables.withLogs hwrite.place hi, withLogs_map hwrite.bare i, ?_, ?_⟩
  all_goals rw [withLogs_eq hi]
  exact hwrite.lines s m.disk

namespace Wrote

variable {i : ℕ} {m m' : LogManager} {added : List (DirName × Line)} (h : Wrote i m m' added)

include h

/-- The open sessions stay. -/
theorem opened : m'.opened = m.opened := by rw [h.same]

/-- The live writers stay. -/
theorem logs : m'.logs = m.logs := by rw [h.same]

/-- The manager stays open or closed. -/
theorem closed : m'.closed = m.closed := by rw [h.same]

/-- The limit stays. -/
theorem bufferLimit : m'.bufferLimit = m.bufferLimit := by rw [h.same]

/-- The commands that wait stay. -/
theorem pendingCommands : m'.pendingCommands = m.pendingCommands := by rw [h.same]

/-- The events that wait stay. -/
theorem pendingEvents : m'.pendingEvents = m.pendingEvents := by rw [h.same]

end Wrote

/-- One thing is written after another. -/
theorem Wrote.trans {i : ℕ} {m m' m'' : LogManager} {first second : List (DirName × Line)} (h : Wrote i m m' first)
    (h' : Wrote i m' m'' second) : Wrote i m m'' (first ++ second) := by
  refine ⟨fun htables hopen => h'.tables (h.tables htables hopen) ?_, h'.book.trans h.book, ?_, ?_⟩
  · rw [h.opened]
    exact hopen
  · rw [h'.lines, h.lines, List.append_assoc]
  · refine h'.same.trans ?_
    rw [h.same]

/-- Some records of one kind are written. -/
theorem wrote_all {α : Type} {write : α → SessionLogs → Disk → SessionLogs × Disk} {line : α → Line}
    (hwrite : ∀ record, Uncounted (write record) [line record]) (records : List α) {m : LogManager}
    {i : ℕ} {s : SessionLogs} (hi : m.objects[i]? = some s) :
    Wrote i m (records.foldl (fun m record => m.withLogs i (write record)) m)
      (records.map fun record => (s.dir, line record)) := by
  induction records generalizing m s with
  | nil => exact ⟨fun htables _ => htables, rfl, (List.append_nil _).symm, rfl⟩
  | cons record rest ih =>
    have hfirst := (hwrite record).wrote hi
    obtain ⟨t, ht, -, hdir⟩ := exists_of_book hfirst.book hi
    have hrest := ih ht
    rw [hdir] at hrest
    exact hfirst.trans hrest

/-- The commands that wait do not matter to what is written. -/
theorem Wrote.withoutCommands {i : ℕ} {m m' : LogManager} {added : List (DirName × Line)} (h : Wrote i m m' added) :
    Wrote i { m with pendingCommands := [] } { m' with pendingCommands := [] } added := by
  refine ⟨fun htables hopen => ?_, h.book, h.lines, ?_⟩
  · have hafter := h.tables ⟨htables.sessions, htables.dirs, htables.keys, htables.opened, htables.shut⟩ hopen
    exact ⟨hafter.sessions, hafter.dirs, hafter.keys, hafter.opened, hafter.shut⟩
  · exact congrArg (fun manager : LogManager => { manager with pendingCommands := [] }) h.same

/-- What waited is written, the events before the commands. -/
theorem wrote_flushPending {m : LogManager} {i : ℕ} {s : SessionLogs} (hi : m.objects[i]? = some s) :
    Wrote i { m with pendingCommands := [], pendingEvents := [] } (m.flushPending i)
      ((m.pendingEvents.map fun record => (s.dir, .event record)) ++
        m.pendingCommands.map fun record => (s.dir, .command record)) := by
  have hbefore : ({ m with pendingEvents := [] } : LogManager).objects[i]? = some s := hi
  have hevents := wrote_all uncounted_writeEvent m.pendingEvents hbefore
  obtain ⟨t, ht, -, hdir⟩ := exists_of_book hevents.book hi
  unfold LogManager.flushPending
  dsimp only
  generalize m.pendingEvents.foldl (fun m record => m.withLogs i (SessionLogs.writeEvent record))
    { m with pendingEvents := [] } = middle at hevents ht ⊢
  have hpending : middle.pendingCommands = m.pendingCommands := hevents.pendingCommands
  have hmiddle : ({ middle with pendingCommands := [] } : LogManager).objects[i]? = some t := ht
  have hcommands := wrote_all uncounted_writeCommand middle.pendingCommands hmiddle
  rw [hpending, hdir] at hcommands
  rw [hpending]
  exact hevents.withoutCommands.trans hcommands

end Coatheal.Ground
