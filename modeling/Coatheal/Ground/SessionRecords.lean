import Coatheal.Ground.Dict
import Coatheal.Ground.OpenSessions

/-!
# What is in the logs of a run

An invariant of the manager and the calls it has served: the rows are those of the packets, in the directories of
their sessions, the writers have counted them, and commands and events are in a file or wait for the first session.
Each call that finds its session open, or opens it well, keeps the invariant, and with it the logs are complete
when the manager is closed.
-/

namespace Coatheal.Ground

open Library

/-- The sessions with their directories. -/
def LogManager.places (m : LogManager) : Dict DirName := m.book.map fun s => (s.sessionId, s.dir)

/-- The directory of a session. -/
def LogManager.home (m : LogManager) (session : List Char) : DirName := (m.places.get? session).getD ⟨0, []⟩

/-- The places are those of the writers. -/
theorem places_eq (m : LogManager) : m.places = m.objects.map fun s => (s.sessionId, s.dir) := by
  unfold LogManager.places LogManager.book
  rw [List.map_map]
  rfl

/-- The sessions that have a place are those that have writers. -/
theorem mem_keys_places {m : LogManager} {session : List Char} :
    session ∈ m.places.keys ↔ ∃ s ∈ m.objects, s.sessionId = session := by
  rw [places_eq, Dict.keys, List.map_map, List.mem_map]
  rfl

/-- Each session has one place. -/
theorem Tables.nodup_keys_places {m : LogManager} (h : Tables m) : m.places.keys.Nodup := by
  rw [places_eq, Dict.keys, List.map_map]
  exact h.sessions

/-- The directory of a session is that of its place. -/
theorem Tables.home_eq {m : LogManager} (h : Tables m) {session : List Char} {dir : DirName}
    (hin : (session, dir) ∈ m.places) : m.home session = dir := by
  unfold LogManager.home
  rw [(Dict.get?_eq_some_iff h.nodup_keys_places).mpr hin, Option.getD_some]

/-- The directory of a session is that of its writers. -/
theorem Tables.home_sessionId {m : LogManager} (h : Tables m) {s : SessionLogs} (hin : s ∈ m.objects) :
    m.home s.sessionId = s.dir :=
  h.home_eq (places_eq m ▸ List.mem_map.mpr ⟨s, hin, rfl⟩)

/-- Sessions keep their directories when others come to them. -/
theorem Tables.home_of_subset {m m' : LogManager} (h : Tables m) (h' : Tables m') (hsubset : m.places ⊆ m'.places)
    {session : List Char} (hin : session ∈ m.places.keys) : m'.home session = m.home session := by
  obtain ⟨entry, hentry, rfl⟩ := List.mem_map.mp hin
  rw [h.home_eq hentry, h'.home_eq (hsubset hentry)]

/-- Packets of more calls. -/
theorem packetsOf_append (first second : List Call) :
    packetsOf (first ++ second) = packetsOf first ++ packetsOf second := List.filterMap_append

/-- Commands of more calls. -/
theorem commandsOf_append (first second : List Call) :
    commandsOf (first ++ second) = commandsOf first ++ commandsOf second := List.filterMap_append

/-- Events of more calls. -/
theorem eventsOf_append (first second : List Call) : eventsOf (first ++ second) = eventsOf first ++ eventsOf second :=
  List.filterMap_append

/-- Packets of a session in more calls. -/
theorem packetsIn_append (session : List Char) (first second : List Call) :
    packetsIn session (first ++ second) = packetsIn session first ++ packetsIn session second := by
  unfold packetsIn
  rw [packetsOf_append, List.map_append, List.filter_append]

/-- A packet is one of its session. -/
theorem packetsIn_packet (session : List Char) (packet : TelemetryPacket) (rxUtc : List Char) (now : ℕ) :
    packetsIn session [.packet packet rxUtc now] = if packet.sessionId = session then [packet] else [] := by
  change List.filter _ [packet] = _
  rw [List.filter_singleton]
  by_cases h : packet.sessionId = session <;> simp [h]

/-- The session of a packet is that of its call. -/
theorem mem_sessions_of_packet {calls : List Call} {packet : TelemetryPacket × List Char}
    (h : packet ∈ packetsOf calls) :
    packet.1.sessionId ∈ calls.filterMap Call.session? := by
  obtain ⟨call, hcall, heq⟩ := List.mem_filterMap.mp h
  cases call with
  | packet received rxUtc now =>
    obtain rfl := Option.some.inj heq
    exact List.mem_filterMap.mpr ⟨_, hcall, rfl⟩
  | pull => exact (nomatch heq)
  | command => exact (nomatch heq)
  | event => exact (nomatch heq)
  | layout => exact (nomatch heq)

/-- The calls before the first session are at the beginning of those of more calls. -/
theorem early_append (calls more : List Call) : early calls <+: early (calls ++ more) := by
  unfold early
  rw [List.takeWhile_append]
  split
  · exact (List.takeWhile_prefix _).trans (List.prefix_append _ _)
  · exact List.prefix_rfl

/-- Fewer commands come before the first session than in more calls. -/
theorem length_commandsOf_early_le (calls more : List Call) :
    (commandsOf (early calls)).length ≤ (commandsOf (early (calls ++ more))).length :=
  ((early_append calls more).filterMap _).length_le

/-- Fewer events come before the first session than in more calls. -/
theorem length_eventsOf_early_le (calls more : List Call) :
    (eventsOf (early calls)).length ≤ (eventsOf (early (calls ++ more))).length :=
  ((early_append calls more).filterMap _).length_le

/-- Without a session all calls are early. -/
theorem early_eq_self {calls : List Call} (h : calls.filterMap Call.session? = []) : early calls = calls := by
  refine List.takeWhile_eq_self_iff.mpr fun call hcall => ?_
  rw [Option.isNone_iff_eq_none]
  by_contra hsome
  obtain ⟨session, hsession⟩ := Option.ne_none_iff_exists'.mp hsome
  exact absurd (List.mem_filterMap.mpr ⟨call, hcall, hsession⟩) (h ▸ List.not_mem_nil)

/-- Writers have counted the packets of their session. -/
structure SessionLogs.Counted (s : SessionLogs) (calls : List Call) : Prop where
  counts : s.data.Counts s.sessionId (packetsIn s.sessionId calls)
  first : s.data.firstFrameUtc = none ↔ packetsIn s.sessionId calls = []

/-- What is not counted does not matter. -/
theorem counted_bare {s : SessionLogs} {calls : List Call} : s.bare.Counted calls ↔ s.Counted calls :=
  ⟨fun h => ⟨⟨h.counts.sessionId, h.counts.frames, h.counts.firstSeq, h.counts.lastSeq⟩, h.first⟩,
    fun h => ⟨⟨h.counts.sessionId, h.counts.frames, h.counts.firstSeq, h.counts.lastSeq⟩, h.first⟩⟩

/-- Calls without packets of the session are not counted. -/
theorem SessionLogs.Counted.append {s : SessionLogs} {calls more : List Call} (h : s.Counted calls)
    (hnone : packetsIn s.sessionId more = []) : s.Counted (calls ++ more) := by
  have hsame : packetsIn s.sessionId (calls ++ more) = packetsIn s.sessionId calls := by
    rw [packetsIn_append, hnone, List.append_nil]
  exact ⟨hsame.symm ▸ h.counts, hsame.symm ▸ h.first⟩

/-- A packet is counted. -/
theorem SessionLogs.Counted.writePacket {s : SessionLogs} {calls : List Call} (h : s.Counted calls)
    {packet : TelemetryPacket} (hsession : packet.sessionId = s.sessionId) (rxUtc : List Char) (now : ℕ) (disk : Disk) :
    (SessionLogs.writePacket packet rxUtc s disk).1.Counted (calls ++ [.packet packet rxUtc now]) := by
  have hpackets : packetsIn s.sessionId (calls ++ [.packet packet rxUtc now]) =
      packetsIn s.sessionId calls ++ [packet] := by
    rw [packetsIn_append, packetsIn_packet, if_pos hsession]
  have hlength : s.data.frames + 1 = (packetsIn s.sessionId calls ++ [packet]).length := by
    rw [List.length_append, h.counts.frames, List.length_singleton]
  have hlast : some packet.seq = (packetsIn s.sessionId calls ++ [packet]).getLast?.map TelemetryPacket.seq := by
    rw [List.getLast?_concat, Option.map_some]
  have hsome : packetsIn s.sessionId calls ++ [packet] ≠ [] :=
    List.append_ne_nil_of_right_ne_nil _ (List.cons_ne_nil _ _)
  unfold SessionLogs.writePacket
  dsimp only
  split
  case isTrue hnone =>
    have hempty := h.first.mp hnone
    rw [hempty] at hlength hlast hsome
    refine ⟨⟨h.counts.sessionId, ?_, ?_, ?_⟩, iff_of_false (Option.some_ne_none _) ?_⟩
    all_goals
      dsimp only
      rw [hpackets, hempty]
    · exact hlength
    · rfl
    · exact hlast
    · exact hsome
  case isFalse hfirst =>
    have hnonempty : packetsIn s.sessionId calls ≠ [] := mt h.first.mpr hfirst
    refine ⟨⟨h.counts.sessionId, ?_, ?_, ?_⟩, iff_of_false hfirst ?_⟩
    all_goals
      dsimp only
      rw [hpackets]
    · exact hlength
    · rw [List.head?_append_of_ne_nil _ hnonempty]
      exact h.counts.firstSeq
    · exact hlast
    · exact hsome

/-- The logs of the calls so far: each session has its own writers and rows in its own directory, which its metadata
counts, and the commands and the events are there or wait for the first session. -/
structure Recorded (m : LogManager) (calls : List Call) : Prop where
  tables : Tables m
  running : m.closed = false
  live : ∀ i, m.logs = some i → m.pendingCommands = [] ∧ m.pendingEvents = [] ∧ ∃ entry ∈ m.opened, entry.2 = i
  waiting : m.logs = none → m.objects = [] ∧ m.opened = []
  sessions : ∀ session ∈ calls.filterMap Call.session?, session ∈ m.places.keys
  counted : ∀ s ∈ m.book, s.Counted calls
  rows : m.disk.rows = (packetsOf calls).map fun packet => (m.home packet.1.sessionId, packet)
  commands : (commandsOf (early calls)).length ≤ m.bufferLimit →
    m.disk.commands ++ m.pendingCommands = commandsOf calls
  events : (eventsOf (early calls)).length ≤ m.bufferLimit → m.disk.events ++ m.pendingEvents = eventsOf calls

/-- While there is no live session there was no session. -/
theorem Recorded.sessions_eq_nil {m : LogManager} {calls : List Call} (h : Recorded m calls) (hnone : m.logs = none) :
    calls.filterMap Call.session? = [] := by
  refine List.eq_nil_iff_forall_not_mem.mpr fun session hin => ?_
  obtain ⟨s, hs, -⟩ := mem_keys_places.mp (h.sessions session hin)
  exact absurd hs ((h.waiting hnone).1 ▸ List.not_mem_nil)

/-- With an open session there is a live one. -/
theorem Recorded.exists_live {m : LogManager} {calls : List Call} (h : Recorded m calls) {entry : List Char × ℕ}
    (hin : entry ∈ m.opened) : ∃ k, m.logs = some k := by
  exact Option.ne_none_iff_exists'.mp fun hnone => absurd hin ((h.waiting hnone).2 ▸ List.not_mem_nil)

/-- The packets so far are where they were. -/
theorem Recorded.map_home {m m' : LogManager} {calls : List Call} (h : Recorded m calls) (h' : Tables m')
    (hsubset : m.places ⊆ m'.places) :
    ((packetsOf calls).map fun packet => (m'.home packet.1.sessionId, packet)) =
      (packetsOf calls).map fun packet => (m.home packet.1.sessionId, packet) :=
  List.map_congr_left fun _ hin => by
    rw [h.tables.home_of_subset h' hsubset (h.sessions _ (mem_sessions_of_packet hin))]

/-- What is appended to the files. -/
theorem disk_append {disk disk' : Disk} {added : List (DirName × Line)} (h : disk'.lines = disk.lines ++ added) :
    disk'.rows = disk.rows ++ (⟨added, disk.metas⟩ : Disk).rows ∧
      disk'.commands = disk.commands ++ (⟨added, disk.metas⟩ : Disk).commands ∧
      disk'.events = disk.events ++ (⟨added, disk.metas⟩ : Disk).events := by
  unfold Disk.rows Disk.commands Disk.events
  rw [h]
  exact ⟨List.filterMap_append, List.filterMap_append, List.filterMap_append⟩

/-- A call is served by open writers. -/
theorem Recorded.written {m m' : LogManager} {calls : List Call} (h : Recorded m calls)
    {entry : List Char × ℕ} (hopen : entry ∈ m.opened) (htables : Tables m') (hplaces : m'.places = m.places)
    (hsame : m' = { m with objects := m'.objects, disk := m'.disk }) {added : List (DirName × Line)}
    (hlines : m'.disk.lines = m.disk.lines ++ added) {call : Call}
    (hsession : ∀ session, call.session? = some session → session ∈ m.places.keys)
    (hcounted : ∀ s ∈ m'.book, s.Counted (calls ++ [call]))
    (hrows : (⟨added, m.disk.metas⟩ : Disk).rows =
      (packetsOf [call]).map fun packet => (m.home packet.1.sessionId, packet))
    (hcommands : (⟨added, m.disk.metas⟩ : Disk).commands = commandsOf [call])
    (hevents : (⟨added, m.disk.metas⟩ : Disk).events = eventsOf [call]) : Recorded m' (calls ++ [call]) := by
  obtain ⟨k, hk⟩ := h.exists_live hopen
  obtain ⟨hnoCommands, hnoEvents, -⟩ := h.live k hk
  have hlogs : m'.logs = m.logs := by rw [hsame]
  have hopened : m'.opened = m.opened := by rw [hsame]
  have hpendingCommands : m'.pendingCommands = [] := by rw [hsame, ← hnoCommands]
  have hpendingEvents : m'.pendingEvents = [] := by rw [hsame, ← hnoEvents]
  have hlimit : m'.bufferLimit = m.bufferLimit := by rw [hsame]
  have hrunning : m'.closed = false := by rw [hsame, ← h.running]
  have hsessions : ∀ session ∈ (calls ++ [call]).filterMap Call.session?, session ∈ m.places.keys := by
    intro session hin
    rw [List.filterMap_append, List.mem_append] at hin
    refine hin.elim (h.sessions session) fun hcall => hsession session ?_
    obtain ⟨other, hother, heq⟩ := List.mem_filterMap.mp hcall
    rw [← List.mem_singleton.mp hother]
    exact heq
  have hhome : ((packetsOf (calls ++ [call])).map fun packet => (m'.home packet.1.sessionId, packet)) =
      (packetsOf (calls ++ [call])).map fun packet => (m.home packet.1.sessionId, packet) :=
    List.map_congr_left fun _ hin => by
      rw [h.tables.home_of_subset htables (hplaces ▸ List.Subset.refl _) (hsessions _ (mem_sessions_of_packet hin))]
  obtain ⟨hrows', hcommands', hevents'⟩ := disk_append hlines
  refine ⟨htables, hrunning, fun j hj => ?_, fun hnone => ?_, hplaces.symm ▸ hsessions, hcounted, ?_, fun hfew => ?_,
    fun hfew => ?_⟩
  · rw [hopened]
    exact ⟨hpendingCommands, hpendingEvents, (h.live j (hlogs ▸ hj)).2.2⟩
  · rw [hlogs, hk] at hnone
    exact (nomatch hnone)
  · rw [hhome, hrows', hrows, h.rows, packetsOf_append, List.map_append]
  · have hbefore := h.commands ((length_commandsOf_early_le calls [call]).trans (hlimit ▸ hfew))
    rw [hnoCommands, List.append_nil] at hbefore
    rw [hcommands', hpendingCommands, List.append_nil, hbefore, hcommands, commandsOf_append]
  · have hbefore := h.events ((length_eventsOf_early_le calls [call]).trans (hlimit ▸ hfew))
    rw [hnoEvents, List.append_nil] at hbefore
    rw [hevents', hpendingEvents, List.append_nil, hbefore, hevents, eventsOf_append]

/-- A call is served by a record that is not counted, or by none. -/
theorem Recorded.wrote {m m' : LogManager} {calls : List Call} (h : Recorded m calls) {i : ℕ}
    (hopen : ∃ entry ∈ m.opened, entry.2 = i) {added : List (DirName × Line)} (hw : Wrote i m m' added) {call : Call}
    (hsession : ∀ session, call.session? = some session → session ∈ m.places.keys) (hpackets : packetsOf [call] = [])
    (hrows : (⟨added, m.disk.metas⟩ : Disk).rows = [])
    (hcommands : (⟨added, m.disk.metas⟩ : Disk).commands = commandsOf [call])
    (hevents : (⟨added, m.disk.metas⟩ : Disk).events = eventsOf [call]) : Recorded m' (calls ++ [call]) := by
  have hplaces : m'.places = m.places := by
    unfold LogManager.places
    rw [hw.book]
  refine h.written hopen.choose_spec.1 (hw.tables h.tables hopen) hplaces hw.same hw.lines hsession
    (fun s hs => (h.counted s (hw.book ▸ hs)).append ?_) ?_ hcommands hevents
  · unfold packetsIn
    rw [hpackets]
    rfl
  · rw [hrows, hpackets]
    rfl

/-- A packet is appended to the rows of its directory. -/
theorem writePacket_lines (packet : TelemetryPacket) (rxUtc : List Char) (s : SessionLogs) (disk : Disk) :
    (SessionLogs.writePacket packet rxUtc s disk).2.lines = disk.lines ++ [(s.dir, .row packet rxUtc)] := by
  unfold SessionLogs.writePacket
  dsimp only
  split
  · rfl
  · dsimp only
    split
    · rfl
    · rfl

/-- A packet is served by the open writers of its session. -/
theorem Recorded.packet {m : LogManager} {calls : List Call} (h : Recorded m calls) {i : ℕ} {s : SessionLogs}
    (hi : m.objects[i]? = some s) (hopen : ∃ entry ∈ m.opened, entry.2 = i) {packet : TelemetryPacket}
    (hsession : packet.sessionId = s.sessionId) (rxUtc : List Char) (now : ℕ) :
    Recorded (m.withLogs i (SessionLogs.writePacket packet rxUtc)) (calls ++ [.packet packet rxUtc now]) := by
  have hplace := writePacket_inPlace packet rxUtc
  have hin : s ∈ m.objects := List.mem_of_getElem? hi
  have hlines : (m.withLogs i (SessionLogs.writePacket packet rxUtc)).disk.lines =
      m.disk.lines ++ [(s.dir, .row packet rxUtc)] := by
    rw [withLogs_eq hi]
    exact writePacket_lines packet rxUtc s m.disk
  refine h.written hopen.choose_spec.1 (h.tables.withLogs hplace hi hopen) ?_ ?_ hlines ?_ ?_ ?_ rfl rfl
  · rw [places_eq, places_eq]
    exact withLogs_map (fun t disk => Prod.ext (hplace.sessionId t disk) (hplace.dir t disk)) i
  · rw [withLogs_eq hi]
  · intro session heq
    obtain rfl := Option.some.inj heq
    exact mem_keys_places.mpr ⟨s, hin, hsession.symm⟩
  · intro counted hcounted
    obtain ⟨t, ht, rfl⟩ := List.mem_map.mp hcounted
    obtain ⟨j, hj⟩ := List.mem_iff_getElem?.mp ht
    rw [counted_bare]
    rw [getElem?_withLogs hi] at hj
    split at hj
    case isTrue =>
      obtain rfl := Option.some.inj hj
      exact (counted_bare.mp (h.counted _ (List.mem_map_of_mem hin))).writePacket hsession rxUtc now _
    case isFalse hne =>
      refine (counted_bare.mp (h.counted _ (List.mem_map_of_mem (List.mem_of_getElem? hj)))).append ?_
      rw [packetsIn_packet, if_neg fun hsame => ?_]
      exact hne (place_of_nodup h.tables.sessions hi hj (hsession.symm.trans hsame))
  · change [(s.dir, packet, rxUtc)] = [(m.home packet.sessionId, packet, rxUtc)]
    rw [hsession, h.tables.home_sessionId hin]

/-- A call that finds no open writers, or needs none, leaves the files as they are. -/
theorem Recorded.unwritten {m : LogManager} {calls : List Call} (h : Recorded m calls) {call : Call}
    (hsession : call.session? = none) (hpackets : packetsOf [call] = []) {commands : List CommandRecord}
    {events : List EventRecord}
    (hcommands : (commandsOf (early (calls ++ [call]))).length ≤ m.bufferLimit →
      commands = m.pendingCommands ++ commandsOf [call])
    (hevents : (eventsOf (early (calls ++ [call]))).length ≤ m.bufferLimit →
      events = m.pendingEvents ++ eventsOf [call])
    (hlive : m.logs = none ∨ commands = m.pendingCommands ∧ events = m.pendingEvents) :
    Recorded { m with pendingCommands := commands, pendingEvents := events } (calls ++ [call]) := by
  have hsessions : (calls ++ [call]).filterMap Call.session? = calls.filterMap Call.session? := by
    rw [List.filterMap_append, List.filterMap_cons_none hsession, List.filterMap_nil, List.append_nil]
  refine ⟨⟨h.tables.sessions, h.tables.dirs, h.tables.keys, h.tables.opened, h.tables.shut⟩, h.running,
    fun i hi => ?_, h.waiting, hsessions.symm ▸ h.sessions, fun s hs => (h.counted s hs).append ?_, ?_, fun hfew => ?_,
    fun hfew => ?_⟩
  · rcases hlive with hnone | ⟨rfl, rfl⟩
    · exact absurd (hnone.symm.trans hi) (Option.some_ne_none i).symm
    · exact h.live i hi
  · unfold packetsIn
    rw [hpackets]
    rfl
  · rw [packetsOf_append, hpackets, List.append_nil]
    exact h.rows
  · have hbefore := h.commands ((length_commandsOf_early_le calls [call]).trans hfew)
    dsimp only
    rw [hcommands hfew, ← List.append_assoc, hbefore, commandsOf_append]
  · have hbefore := h.events ((length_eventsOf_early_le calls [call]).trans hfew)
    dsimp only
    rw [hevents hfew, ← List.append_assoc, hbefore, eventsOf_append]

/-- A queue that is not full takes one more. -/
theorem pushLimited_eq {α : Type} {limit : ℕ} {front queue : List α} {record : α}
    (h : (front ++ queue ++ [record]).length ≤ limit) :
    LogManager.pushLimited limit queue record = queue ++ [record] := by
  rw [List.length_append, List.length_append, List.length_singleton] at h
  unfold LogManager.pushLimited
  rw [Nat.sub_eq_zero_of_le (by omega), List.drop_zero]

/-- While there is no live session a call that has none is early, and so are those before it. -/
theorem Recorded.early_eq {m : LogManager} {calls : List Call} (h : Recorded m calls) (hnone : m.logs = none)
    {call : Call} (hsession : call.session? = none) : early (calls ++ [call]) = calls ++ [call] := by
  refine early_eq_self ?_
  rw [List.filterMap_append, h.sessions_eq_nil hnone, List.filterMap_cons_none hsession]
  rfl

/-- A command before the first session waits, if not too many wait. -/
theorem Recorded.pushCommand {m : LogManager} {calls : List Call} (h : Recorded m calls) (hnone : m.logs = none)
    (record : CommandRecord)
    (hfew : (commandsOf (early (calls ++ [.command record]))).length ≤ m.bufferLimit) :
    LogManager.pushLimited m.bufferLimit m.pendingCommands record = m.pendingCommands ++ [record] := by
  have hbefore := h.commands ((length_commandsOf_early_le calls [.command record]).trans hfew)
  rw [h.early_eq hnone rfl, commandsOf_append, ← hbefore] at hfew
  exact pushLimited_eq hfew

/-- So does an event. -/
theorem Recorded.pushEvent {m : LogManager} {calls : List Call} (h : Recorded m calls) (hnone : m.logs = none)
    (record : EventRecord) (hfew : (eventsOf (early (calls ++ [.event record]))).length ≤ m.bufferLimit) :
    LogManager.pushLimited m.bufferLimit m.pendingEvents record = m.pendingEvents ++ [record] := by
  have hbefore := h.events ((length_eventsOf_early_le calls [.event record]).trans hfew)
  rw [h.early_eq hnone rfl, eventsOf_append, ← hbefore] at hfew
  exact pushLimited_eq hfew

/-- A new element keeps a list without repetitions so. -/
theorem nodup_append_singleton {α : Type} {list : List α} {x : α} (h : list.Nodup) (hx : x ∉ list) :
    (list ++ [x]).Nodup := by
  rw [← List.concat_eq_append]
  exact h.concat hx

/-- The manager with new writers for a session, which is open. -/
def LogManager.joined (m : LogManager) (dir : DirName) (session : List Char) : LogManager :=
  { (m.make dir session).1 with opened := m.opened ++ [(session, m.objects.length)] }

/-- The tables with new writers. -/
theorem Tables.joined {m : LogManager} (h : Tables m) {dir : DirName} {session : List Char}
    (hfresh : ∀ s ∈ m.objects, s.sessionId ≠ session) (hapart : ∀ s ∈ m.objects, s.dir ≠ dir) :
    Tables (m.joined dir session) := by
  have hkey : session ∉ m.opened.map Prod.fst := by
    intro hin
    obtain ⟨entry, hentry, hkey⟩ := List.mem_map.mp hin
    obtain ⟨s, hs, hsession⟩ := h.opened entry hentry
    exact hfresh s (List.mem_of_getElem? hs) (hsession.trans hkey)
  have hnew : (m.joined dir session).objects = m.objects ++ [SessionLogs.new dir session] := rfl
  have hopened : (m.joined dir session).opened = m.opened ++ [(session, m.objects.length)] := rfl
  refine ⟨?_, ?_, ?_, fun entry hentry => ?_, fun j s hj => ?_⟩
  · rw [hnew, List.map_append]
    refine nodup_append_singleton h.sessions fun hin => ?_
    obtain ⟨s, hs, hsession⟩ := List.mem_map.mp hin
    exact hfresh s hs hsession
  · rw [hnew, List.map_append]
    refine nodup_append_singleton h.dirs fun hin => ?_
    obtain ⟨s, hs, hdir⟩ := List.mem_map.mp hin
    exact hapart s hs hdir
  · rw [hopened, List.map_append]
    exact nodup_append_singleton h.keys hkey
  · rw [hopened, List.mem_append, List.mem_singleton] at hentry
    rw [hnew]
    rcases hentry with hentry | rfl
    · obtain ⟨s, hs, hsession⟩ := h.opened entry hentry
      exact ⟨s, (List.getElem?_append_left (List.getElem?_eq_some_iff.mp hs).1).trans hs, hsession⟩
    · exact ⟨_, List.getElem?_concat_length, rfl⟩
  · rw [hopened, List.mem_append, List.mem_singleton]
    rw [hnew, List.getElem?_append] at hj
    split at hj
    case isTrue =>
      refine (h.shut j s hj).imp Or.inl fun hshut => ⟨hshut.1, ?_⟩
      change (SessionLogs.writeMeta (SessionLogs.new dir session) m.disk).metas s.dir = _
      rw [SessionLogs.writeMeta_metas _ _ (hapart s (List.mem_of_getElem? hj))]
      exact hshut.2
    case isFalse hge =>
      rw [List.getElem?_singleton] at hj
      split at hj
      case isTrue hzero =>
        obtain rfl := Option.some.inj hj
        refine Or.inl (Or.inr ?_)
        rw [Nat.le_antisymm (Nat.sub_eq_zero_iff_le.mp hzero) (Nat.not_lt.mp hge)]
        rfl
      case isFalse => exact (nomatch hj)

/-- The live session is that of the live writers. -/
theorem liveSession_eq {m : LogManager} {i : ℕ} {s : SessionLogs} (hlogs : m.logs = some i)
    (hi : m.objects[i]? = some s) :
    m.liveSession = some s.sessionId := by
  unfold LogManager.liveSession LogManager.sessionOf
  rw [hlogs, Option.map_some, hi]
  rfl

/-- A session was opened, and none was closed. -/
structure Joined (m m' : LogManager) (session : List Char) (dir : DirName) : Prop where
  tables : Tables m'
  book : m'.book = m.book ++ [SessionLogs.new dir session]
  opened : m'.opened = m.opened ++ [(session, m.objects.length)]
  running : m'.closed = m.closed
  limit : m'.bufferLimit = m.bufferLimit
  noCommands : m'.pendingCommands = []
  noEvents : m'.pendingEvents = []
  live : ∃ entry ∈ m'.opened, m'.logs = some entry.2
  rows : m'.disk.rows = m.disk.rows
  commands : m'.disk.commands = m.disk.commands ++ m.pendingCommands
  events : m'.disk.events = m.disk.events ++ m.pendingEvents
  stays : Stays m' session

/-- What waited is no rows, but the commands and the events. -/
theorem waited_lines (dir : DirName) (commands : List CommandRecord) (events : List EventRecord)
    (metas : DirName → Option Meta) :
    (⟨(events.map fun record => (dir, .event record)) ++ commands.map fun record => (dir, .command record), metas⟩ :
        Disk).rows = [] ∧
      (⟨(events.map fun record => (dir, .event record)) ++ commands.map fun record => (dir, .command record), metas⟩ :
        Disk).commands = commands ∧
      (⟨(events.map fun record => (dir, .event record)) ++ commands.map fun record => (dir, .command record), metas⟩ :
        Disk).events = events := by
  unfold Disk.rows Disk.commands Disk.events
  simp [List.filterMap_append, List.filterMap_map]

/-- A session that opens well is opened, and stays open. -/
theorem Recorded.joined {m : LogManager} {calls : List Call} (h : Recorded m calls) {session : List Char} {now : ℕ}
    (hwell : OpensWell m session now) :
    Joined m ((m.joined (sessionDirName session now) session).live m.objects.length session) session
      (sessionDirName session now) := by
  have hjoined := h.tables.joined hwell.fresh hwell.apart
  have hbook : (m.joined (sessionDirName session now) session).book =
      m.book ++ [SessionLogs.new (sessionDirName session now) session] := List.map_append
  have hnew : (m.joined (sessionDirName session now) session).objects[m.objects.length]? =
      some (SessionLogs.new (sessionDirName session now) session) := List.getElem?_concat_length
  have hentry : (session, m.objects.length) ∈ (m.joined (sessionDirName session now) session).opened :=
    List.mem_append_right _ (List.mem_singleton_self _)
  generalize hdir : sessionDirName session now = dir at hjoined hbook hnew hentry ⊢
  unfold LogManager.live
  cases hlogs : m.logs with
  | none =>
    have hlive : (m.joined dir session).liveSession = none := by
      unfold LogManager.liveSession
      rw [show (m.joined dir session).logs = none from hlogs]
      rfl
    rw [hlive]
    dsimp only
    have hbefore : ({ m.joined dir session with logs := some m.objects.length } : LogManager).objects[
        m.objects.length]? = some (SessionLogs.new dir session) := hnew
    have hw := wrote_flushPending hbefore
    obtain ⟨hrows, hcommands, hevents⟩ := waited_lines dir m.pendingCommands m.pendingEvents m.disk.metas
    obtain ⟨hrows', hcommands', hevents'⟩ := disk_append hw.lines
    generalize LogManager.flushPending { m.joined dir session with logs := some m.objects.length } m.objects.length = m'
      at hw hrows' hcommands' hevents' ⊢
    have hopened : m'.opened = m.opened ++ [(session, m.objects.length)] := hw.opened
    have hlogs' : m'.logs = some m.objects.length := hw.logs
    obtain ⟨t, ht, hsession, -⟩ := exists_of_book hw.book hnew
    refine ⟨hw.tables ⟨hjoined.sessions, hjoined.dirs, hjoined.keys, hjoined.opened, hjoined.shut⟩ ⟨_, hentry, rfl⟩,
      hw.book.trans hbook, hopened, hw.closed, hw.bufferLimit, hw.pendingCommands, hw.pendingEvents,
      ⟨(session, m.objects.length), hopened ▸ hentry, hlogs'⟩, ?_, ?_, ?_, Or.inl ?_⟩
    · exact hrows'.trans ((congrArg (m.disk.rows ++ ·) hrows).trans (List.append_nil _))
    · exact hcommands'.trans (congrArg (m.disk.commands ++ ·) hcommands)
    · exact hevents'.trans (congrArg (m.disk.events ++ ·) hevents)
    · exact (liveSession_eq hlogs' ht).trans (congrArg some hsession)
  | some k =>
    obtain ⟨hnoCommands, hnoEvents, entry, hin, rfl⟩ := h.live k hlogs
    obtain ⟨s, hs, hsession⟩ := h.tables.opened entry hin
    have hs' : (m.joined dir session).objects[entry.2]? = some s :=
      (List.getElem?_append_left (List.getElem?_eq_some_iff.mp hs).1).trans hs
    have hlive : (m.joined dir session).liveSession = some entry.1 := hsession ▸ liveSession_eq hlogs hs'
    have hcommands : m.disk.commands = m.disk.commands ++ m.pendingCommands := by rw [hnoCommands, List.append_nil]
    have hevents : m.disk.events = m.disk.events ++ m.pendingEvents := by rw [hnoEvents, List.append_nil]
    rw [hlive]
    dsimp only
    split
    case isTrue =>
      refine ⟨⟨hjoined.sessions, hjoined.dirs, hjoined.keys, hjoined.opened, hjoined.shut⟩, hbook, rfl, rfl, rfl,
        hnoCommands, hnoEvents, ⟨_, hentry, rfl⟩, rfl, hcommands, hevents, Or.inl ?_⟩
      have hlogs' : ({ m.joined dir session with logs := some m.objects.length } : LogManager).logs =
        some m.objects.length := rfl
      exact liveSession_eq hlogs' hnew
    case isFalse hnewer =>
      refine ⟨hjoined, hbook, rfl, rfl, rfl, hnoCommands, hnoEvents, ⟨entry, List.mem_append_left _ hin, hlogs⟩, rfl,
        hcommands, hevents, Or.inr fun other hother => ?_⟩
      rw [hlive]
      have hold := (hwell.stays entry.1 (hsession ▸ liveSession_eq hlogs hs)).resolve_left hnewer
      rcases List.mem_append.mp hother with hother | hother
      · exact (hold other hother).imp (congrArg some ·.symm) Or.inr
      · exact Or.inr (Or.inl (congrArg Prod.fst (List.mem_singleton.mp hother)))

/-- A session that is open is the live one when its writers are. -/
theorem Tables.liveSession_eq {m : LogManager} (h : Tables m) {entry : List Char × ℕ} (hin : entry ∈ m.opened)
    (hlogs : m.logs = some entry.2) : m.liveSession = some entry.1 := by
  obtain ⟨s, hs, hsession⟩ := h.opened entry hin
  exact (Ground.liveSession_eq hlogs hs).trans (congrArg some hsession)

/-- Writers that were just made have counted nothing. -/
theorem counted_new {calls : List Call} {dir : DirName} {session : List Char}
    (h : session ∉ calls.filterMap Call.session?) : (SessionLogs.new dir session).Counted calls := by
  have hnone : packetsIn session calls = [] := by
    refine List.filter_eq_nil_iff.mpr fun packet hin => ?_
    obtain ⟨received, hreceived, rfl⟩ := List.mem_map.mp hin
    rw [decide_eq_true_eq]
    rintro rfl
    exact h (mem_sessions_of_packet hreceived)
  change packetsIn (SessionLogs.new dir session).sessionId calls = [] at hnone
  refine ⟨⟨rfl, ?_, ?_, ?_⟩, iff_of_true rfl hnone⟩
  all_goals
    rw [hnone]
    rfl

/-- A session that opens well is open afterwards, and nothing is lost. -/
theorem Recorded.openSession {m : LogManager} {calls : List Call} (h : Recorded m calls) {session : List Char} {now : ℕ}
    (hwell : OpensWell m session now) :
    Recorded (m.openSession session now).1 calls ∧
      (session, (m.openSession session now).2) ∈ (m.openSession session now).1.opened := by
  have hj := h.joined hwell
  change Recorded (LogManager.closeOldest
      ((m.joined (sessionDirName session now) session).live m.objects.length session).opened.length
      ((m.joined (sessionDirName session now) session).live m.objects.length session)) calls ∧
    (session, m.objects.length) ∈ (LogManager.closeOldest
      ((m.joined (sessionDirName session now) session).live m.objects.length session).opened.length
      ((m.joined (sessionDirName session now) session).live m.objects.length session)).opened
  generalize (m.joined (sessionDirName session now) session).live m.objects.length session = m₂ at hj ⊢
  obtain ⟨htidy, hkept⟩ := hj.tables.tidied_closeOldest m₂.opened.length
  generalize LogManager.closeOldest m₂.opened.length m₂ = m₃ at htidy hkept ⊢
  have hbook : m₃.book = m.book ++ [SessionLogs.new (sessionDirName session now) session] := htidy.book.trans hj.book
  have hsubset : m.places ⊆ m₃.places := by
    unfold LogManager.places
    rw [hbook, List.map_append]
    exact List.subset_append_left _ _
  have hfresh : session ∉ calls.filterMap Call.session? := fun hin => by
    obtain ⟨s, hs, hsession⟩ := mem_keys_places.mp (h.sessions session hin)
    exact hwell.fresh s hs hsession
  have hnoCommands : m₃.pendingCommands = [] := htidy.pendingCommands.trans hj.noCommands
  have hnoEvents : m₃.pendingEvents = [] := htidy.pendingEvents.trans hj.noEvents
  have hlimit : m₃.bufferLimit = m.bufferLimit := htidy.bufferLimit.trans hj.limit
  obtain ⟨hrows, hcommands, hevents⟩ := disk_append (htidy.lines.trans (List.append_nil _).symm)
  obtain ⟨live, hlive, hlogs⟩ := hj.live
  have hnew : (session, m.objects.length) ∈ m₂.opened := hj.opened ▸ List.mem_append_right _ (List.mem_singleton_self _)
  refine ⟨⟨htidy.tables, htidy.closed.trans (hj.running.trans h.running), fun i hi => ?_, fun hnone => ?_,
    fun other hin => ?_, fun s hs => ?_, ?_, fun hfew => ?_, fun hfew => ?_⟩, hkept _ hnew hj.stays⟩
  · rw [htidy.logs, hlogs] at hi
    exact ⟨hnoCommands, hnoEvents, live, hkept live hlive (Or.inl (hj.tables.liveSession_eq hlive hlogs)),
      Option.some.inj hi⟩
  · rw [htidy.logs, hlogs] at hnone
    exact (nomatch hnone)
  · exact List.map_subset Prod.fst hsubset (h.sessions other hin)
  · rw [hbook, List.mem_append, List.mem_singleton] at hs
    rcases hs with hs | rfl
    · exact h.counted s hs
    · exact counted_new hfresh
  · rw [hrows, hj.rows, h.rows, h.map_home htidy.tables hsubset]
    exact List.append_nil _
  · rw [hcommands, hj.commands, hnoCommands, List.append_nil, ← h.commands (hlimit ▸ hfew)]
    exact List.append_nil _
  · rw [hevents, hj.events, hnoEvents, List.append_nil, ← h.events (hlimit ▸ hfew)]
    exact List.append_nil _

/-- A session that is open, or opens well, is open afterwards, and nothing is lost. -/
theorem Recorded.logsFor {m : LogManager} {calls : List Call} (h : Recorded m calls) {session : List Char} {now : ℕ}
    (hok : (∃ entry ∈ m.opened, entry.1 = session) ∨ OpensWell m session now) :
    Recorded (m.logsFor session now).1 calls ∧
      (session, (m.logsFor session now).2.1) ∈ (m.logsFor session now).1.opened := by
  unfold LogManager.logsFor
  split
  case h_1 entry hfind =>
    have hkey := List.find?_some hfind
    rw [decide_eq_true_eq] at hkey
    exact ⟨h, hkey ▸ List.mem_of_find?_eq_some hfind⟩
  case h_2 hnone =>
    refine h.openSession (hok.resolve_left ?_)
    rintro ⟨entry, hin, hkey⟩
    exact absurd (decide_eq_true hkey) (List.find?_eq_none.mp hnone entry hin)

/-- A call that finds its session open, or opens it well, is recorded. -/
theorem Recorded.step {m : LogManager} {calls : List Call} (h : Recorded m calls) {call : Call}
    (hok : OpensOnce m call) : Recorded (m.step call) (calls ++ [call]) := by
  have hrunning : ¬ m.closed = true := by
    rw [h.running]
    exact Bool.false_ne_true
  cases call with
  | packet packet rxUtc now =>
    obtain ⟨hopened, hentry⟩ := h.logsFor hok
    obtain ⟨s, hs, hsession⟩ := hopened.tables.opened _ hentry
    have hstep : m.step (.packet packet rxUtc now) = (m.logsFor packet.sessionId now).1.withLogs
        (m.logsFor packet.sessionId now).2.1 (SessionLogs.writePacket packet rxUtc) := by
      change (m.onPacket packet rxUtc now).1 = _
      unfold LogManager.onPacket
      rw [if_neg hrunning]
    rw [hstep]
    exact hopened.packet hs ⟨_, hentry, rfl⟩ hsession.symm rxUtc now
  | pull event rxUtc now =>
    obtain ⟨hopened, hentry⟩ := h.logsFor hok
    obtain ⟨s, hs, hsession⟩ := hopened.tables.opened _ hentry
    have hstep : m.step (.pull event rxUtc now) = (m.logsFor event.sessionId now).1.withLogs
        (m.logsFor event.sessionId now).2.1 (SessionLogs.writePull event rxUtc) := by
      change m.onPull event rxUtc now = _
      unfold LogManager.onPull
      rw [if_neg hrunning]
    rw [hstep]
    refine hopened.wrote ⟨_, hentry, rfl⟩ ((uncounted_writePull event rxUtc).wrote hs) (fun session heq => ?_) rfl rfl
      rfl rfl
    obtain rfl := Option.some.inj heq
    exact mem_keys_places.mpr ⟨s, List.mem_of_getElem? hs, hsession⟩
  | command record =>
    change Recorded (m.logCommand record) _
    unfold LogManager.logCommand
    rw [if_neg hrunning]
    split
    case h_1 hnone =>
      exact h.unwritten rfl rfl (h.pushCommand hnone record) (fun _ => (List.append_nil _).symm) (Or.inl hnone)
    case h_2 i hlogs =>
      obtain ⟨-, -, entry, hin, rfl⟩ := h.live i hlogs
      obtain ⟨s, hs, -⟩ := h.tables.opened entry hin
      exact h.wrote ⟨entry, hin, rfl⟩ ((uncounted_writeCommand record).wrote hs) (fun session heq => (nomatch heq)) rfl
        rfl rfl rfl
  | event record =>
    change Recorded (m.logEvent record) _
    unfold LogManager.logEvent
    rw [if_neg hrunning]
    split
    case h_1 hnone =>
      exact h.unwritten rfl rfl (fun _ => (List.append_nil _).symm) (h.pushEvent hnone record) (Or.inl hnone)
    case h_2 i hlogs =>
      obtain ⟨-, -, entry, hin, rfl⟩ := h.live i hlogs
      obtain ⟨s, hs, -⟩ := h.tables.opened entry hin
      exact h.wrote ⟨entry, hin, rfl⟩ ((uncounted_writeEvent record).wrote hs) (fun session heq => (nomatch heq)) rfl
        rfl rfl rfl
  | layout session layout =>
    change Recorded (m.recordLayout session layout) _
    unfold LogManager.recordLayout
    split
    case h_1 =>
      exact h.unwritten rfl rfl (fun _ => (List.append_nil _).symm) (fun _ => (List.append_nil _).symm)
        (Or.inr ⟨rfl, rfl⟩)
    case h_2 entry hfind =>
      have hin : entry ∈ m.opened := List.mem_of_find?_eq_some hfind
      obtain ⟨s, hs, -⟩ := h.tables.opened entry hin
      rw [if_neg hrunning]
      exact h.wrote ⟨entry, hin, rfl⟩ ((uncounted_setLayout layout).wrote hs) (fun session heq => (nomatch heq)) rfl rfl
        rfl rfl

/-- Before the first call nothing is there. -/
theorem recorded_new (limit started : ℕ) (metas : DirName → Option Meta) : Recorded (.new limit started metas) [] :=
  ⟨⟨List.nodup_nil, List.nodup_nil, List.nodup_nil, fun _ hin => absurd hin List.not_mem_nil,
      fun _ _ hs => (nomatch hs)⟩,
    rfl, fun _ hlogs => (nomatch hlogs), fun _ => ⟨rfl, rfl⟩, fun _ hin => absurd hin List.not_mem_nil,
    fun _ hin => absurd hin List.not_mem_nil, rfl, fun _ => rfl, fun _ => rfl⟩

/-- The calls of a run that opens each session once are recorded. -/
theorem recorded_run {limit started : ℕ} {metas : DirName → Option Meta} {calls : List Call}
    (h : Meets LogManager.step OpensOnce (.new limit started metas) calls) :
    Recorded (run LogManager.step (.new limit started metas) calls) calls := by
  induction calls using List.reverseRecOn with
  | nil => exact recorded_new limit started metas
  | append_singleton calls call ih =>
    obtain ⟨hbefore, hcall⟩ := meets_append.mp h
    rw [run_append]
    exact (ih hbefore).step hcall.1

/-- Logs that are recorded are kept when all writers are shut. -/
theorem Recorded.kept {m m' : LogManager} {calls : List Call} (h : Recorded m calls)
    (hnoCommands : m.pendingCommands = []) (hnoEvents : m.pendingEvents = []) (hbook : m'.book = m.book)
    (hlines : m'.disk.lines = m.disk.lines) (hlimit : m'.bufferLimit = m.bufferLimit)
    (hshut : ∀ s ∈ m'.objects, s.Shut ∧ m'.disk.metas s.dir = some s.data) : Kept m' calls m.home := by
  have hplaces : m'.places = m.places := by
    unfold LogManager.places
    rw [hbook]
  obtain ⟨hrows, hcommands, hevents⟩ := disk_append (hlines.trans (List.append_nil _).symm)
  refine ⟨fun first hfirst second hsecond hsame => ?_, ?_, fun session hin => ?_, fun hfew => ?_, fun hfew => ?_,
    fun s hs => (hshut s hs).1⟩
  · obtain ⟨s, hs, rfl⟩ := mem_keys_places.mp (h.sessions first hfirst)
    obtain ⟨t, ht, rfl⟩ := mem_keys_places.mp (h.sessions second hsecond)
    rw [h.tables.home_sessionId hs, h.tables.home_sessionId ht] at hsame
    rw [List.inj_on_of_nodup_map h.tables.dirs hs ht hsame]
  · exact hrows.trans ((List.append_nil _).trans h.rows)
  · obtain ⟨s, hs, rfl⟩ := mem_keys_places.mp (hplaces.symm ▸ h.sessions session hin)
    have hplace : (s.sessionId, s.dir) ∈ m.places := hplaces ▸ places_eq m' ▸ List.mem_map.mpr ⟨s, hs, rfl⟩
    rw [h.tables.home_eq hplace]
    exact ⟨s.data, (hshut s hs).2, (counted_bare.mp (h.counted _ (hbook ▸ List.mem_map_of_mem hs))).counts⟩
  · have hbefore := h.commands (hlimit ▸ hfew)
    rw [hnoCommands, List.append_nil] at hbefore
    exact hcommands.trans ((List.append_nil _).trans hbefore)
  · have hbefore := h.events (hlimit ▸ hfew)
    rw [hnoEvents, List.append_nil] at hbefore
    exact hevents.trans ((List.append_nil _).trans hbefore)

/-- The end with a live session: its writers are the last to be closed. -/
theorem Recorded.complete_live {m : LogManager} {calls : List Call} (h : Recorded m calls) {i : ℕ}
    (hlogs : m.logs = some i) : Complete m.close calls := by
  obtain ⟨hnoCommands, hnoEvents, entry, hin, rfl⟩ := h.live i hlogs
  obtain ⟨htidy, hlast⟩ := h.tables.tidied_closeOthers
  obtain ⟨s, hs, -⟩ := h.tables.opened entry hin
  obtain ⟨t, ht, -⟩ := exists_of_book htidy.book hs
  have hclose : m.close =
      { { m.closeOthers with closed := true }.withLogs entry.2 SessionLogs.close with logs := none } := by
    unfold LogManager.close
    dsimp only
    rw [if_neg (by rw [htidy.closed, h.running]; exact Bool.false_ne_true), htidy.logs, hlogs]
  have ht' : ({ m.closeOthers with closed := true } : LogManager).objects[entry.2]? = some t := ht
  have hw := uncounted_close.wrote ht'
  have hobjects (j : ℕ) : m.close.objects[j]? =
      if entry.2 = j then some (t.close m.closeOthers.disk).1 else m.closeOthers.objects[j]? :=
    (congrArg (fun manager : LogManager => manager.objects[j]?) hclose).trans (getElem?_withLogs ht' _ j)
  have hdisk : m.close.disk = t.writeMeta m.closeOthers.disk := by
    rw [hclose, withLogs_eq ht']
    rfl
  refine ⟨m.home, h.kept hnoCommands hnoEvents ?_ ?_ ?_ fun u hu => ?_⟩
  · rw [hclose]
    exact hw.book.trans htidy.book
  · rw [hdisk]
    exact htidy.lines
  · rw [hclose]
    exact hw.bufferLimit.trans htidy.bufferLimit
  · obtain ⟨j, hj⟩ := List.mem_iff_getElem?.mp hu
    rw [hobjects] at hj
    rw [hdisk]
    split at hj
    case isTrue =>
      obtain rfl := Option.some.inj hj
      exact ⟨⟨rfl, rfl, rfl, rfl⟩, Function.update_self _ _ _⟩
    case isFalse hne =>
      rcases htidy.tables.shut j u hj with hopen | hshut
      · have hlive := hlast _ hopen
        rw [hlogs] at hlive
        exact absurd (Option.some.inj hlive) hne
      · refine ⟨hshut.1, ?_⟩
        rw [SessionLogs.writeMeta_metas _ _ fun hsame => hne (place_of_nodup htidy.tables.dirs ht hj hsame.symm)]
        exact hshut.2

/-- Without a session there are no packets. -/
theorem packetsOf_eq_nil {calls : List Call} (h : calls.filterMap Call.session? = []) : packetsOf calls = [] :=
  List.eq_nil_iff_forall_not_mem.mpr fun _ hin => absurd (mem_sessions_of_packet hin) (h ▸ List.not_mem_nil)

/-- What waits is written by the only writers. -/
theorem complete_flushed {m : LogManager} {calls : List Call} (hsessions : calls.filterMap Call.session? = [])
    {s : SessionLogs} (hobjects : m.objects = [s]) (hrows : m.disk.rows = [])
    (hcommands : (commandsOf (early calls)).length ≤ m.bufferLimit →
      m.disk.commands ++ m.pendingCommands = commandsOf calls)
    (hevents : (eventsOf (early calls)).length ≤ m.bufferLimit → m.disk.events ++ m.pendingEvents = eventsOf calls) :
    Complete ((m.flushPending 0).withLogs 0 SessionLogs.close) calls := by
  have hs : m.objects[0]? = some s := by rw [hobjects]; rfl
  have hflushed := wrote_flushPending hs
  obtain ⟨hnoRows, hallCommands, hallEvents⟩ := waited_lines s.dir m.pendingCommands m.pendingEvents m.disk.metas
  obtain ⟨hrows', hcommands', hevents'⟩ := disk_append hflushed.lines
  generalize m.flushPending 0 = m' at hflushed hrows' hcommands' hevents' ⊢
  obtain ⟨t, ht, -⟩ := exists_of_book hflushed.book hs
  have hlength : m'.objects.length = 1 := by
    have hbook := congrArg List.length hflushed.book
    unfold LogManager.book at hbook
    rw [List.length_map, List.length_map] at hbook
    exact hbook.trans (congrArg List.length hobjects)
  have hw := uncounted_close.wrote ht
  obtain ⟨hrows'', hcommands'', hevents''⟩ := disk_append hw.lines
  refine ⟨fun _ => s.dir, fun first hfirst => absurd hfirst (hsessions ▸ List.not_mem_nil), ?_,
    fun session hin => absurd hin (hsessions ▸ List.not_mem_nil), fun hfew => ?_, fun hfew => ?_, fun u hu => ?_⟩
  · rw [packetsOf_eq_nil hsessions]
    exact hrows''.trans ((List.append_nil _).trans (hrows'.trans (congrArg₂ _ hrows hnoRows)))
  · rw [hw.bufferLimit] at hfew
    refine hcommands''.trans ((List.append_nil _).trans (hcommands'.trans ?_))
    exact (congrArg (m.disk.commands ++ ·) hallCommands).trans (hcommands (hflushed.bufferLimit ▸ hfew))
  · rw [hw.bufferLimit] at hfew
    refine hevents''.trans ((List.append_nil _).trans (hevents'.trans ?_))
    exact (congrArg (m.disk.events ++ ·) hallEvents).trans (hevents (hflushed.bufferLimit ▸ hfew))
  · obtain ⟨j, hj⟩ := List.mem_iff_getElem?.mp hu
    rw [getElem?_withLogs ht] at hj
    split at hj
    case isTrue =>
      obtain rfl := Option.some.inj hj
      exact ⟨rfl, rfl, rfl, rfl⟩
    case isFalse hne =>
      have hlt : j < m'.objects.length := (List.getElem?_eq_some_iff.mp hj).1
      omega

/-- The end without a session: what waits is written to a directory of its own. -/
theorem Recorded.complete_waiting {m : LogManager} {calls : List Call} (h : Recorded m calls) (hnone : m.logs = none) :
    Complete m.close calls := by
  obtain ⟨hobjects, hopened⟩ := h.waiting hnone
  have hsessions := h.sessions_eq_nil hnone
  have hothers : m.closeOthers = m := by
    unfold LogManager.closeOthers
    rw [hopened]
    rfl
  unfold LogManager.close
  dsimp only
  rw [hothers, if_neg (by rw [h.running]; exact Bool.false_ne_true), hnone]
  dsimp only
  split
  case isTrue hempty =>
    refine ⟨m.home, h.kept hempty.1 hempty.2 rfl rfl rfl fun s hs => ?_⟩
    exact absurd hs (hobjects ▸ List.not_mem_nil)
  case isFalse =>
    have hplace : (({ m with closed := true, logs := none } : LogManager).make
        ⟨m.started, "no-session".toList⟩ []).2 = 0 := congrArg List.length hobjects
    rw [hplace]
    refine complete_flushed hsessions (congrArg (· ++ _) hobjects) ?_ h.commands h.events
    exact h.rows.trans (congrArg (List.map _) (packetsOf_eq_nil hsessions))

/-- The logs are complete as long as every session is opened once, and well. -/
theorem complete_of_opensOnce (limit started : ℕ) (metas : DirName → Option Meta) {calls : List Call}
    (h : Meets LogManager.step OpensOnce (.new limit started metas) calls) :
    Complete (run LogManager.step (.new limit started metas) calls).close calls := by
  have hrecorded := recorded_run h
  cases hlogs : (run LogManager.step (.new limit started metas) calls).logs with
  | none => exact hrecorded.complete_waiting hlogs
  | some i => exact hrecorded.complete_live hlogs

/-- Whether a session opens well can be decided. -/
instance decidableOpensWell (m : LogManager) (session : List Char) (now : ℕ) : Decidable (OpensWell m session now) :=
  decidable_of_iff ((∀ s ∈ m.objects, s.sessionId ≠ session) ∧ (∀ s ∈ m.objects, s.dir ≠ sessionDirName session now) ∧
      ∀ live ∈ m.liveSession, LogManager.epochOf live ≤ LogManager.epochOf session ∨
        ∀ entry ∈ m.opened, entry.1 = live ∨ LogManager.before entry.1 session = true)
    ⟨fun h => ⟨h.1, h.2.1, h.2.2⟩, fun h => ⟨h.fresh, h.apart, h.stays⟩⟩

/-- So can a call. -/
instance decidableOpensOnce (m : LogManager) : (call : Call) → Decidable (OpensOnce m call)
  | .packet packet _ now =>
    inferInstanceAs (Decidable ((∃ entry ∈ m.opened, entry.1 = packet.sessionId) ∨ OpensWell m packet.sessionId now))
  | .pull event _ now =>
    inferInstanceAs (Decidable ((∃ entry ∈ m.opened, entry.1 = event.sessionId) ∨ OpensWell m event.sessionId now))
  | .command _ => inferInstanceAs (Decidable True)
  | .event _ => inferInstanceAs (Decidable True)
  | .layout _ _ => inferInstanceAs (Decidable True)

/-- A frame of a session. -/
def frameOf (sessionId : List Char) (seq : ℤ) : Call :=
  .packet ⟨sessionId, seq, [], 1, ⟨false, .finite 0⟩, ⟨false, .finite 0⟩, ⟨false, .finite 0⟩,
    [], [], [], [], [], [], [], [], [], [], none, [], none⟩ [] 0

/-- The frames of a session come between those of a later one, after a command. -/
theorem complete_two : Complete (run LogManager.step (.new 20000 0 fun _ => none)
    [.command ⟨[], true, ⟨false, .finite 0⟩, [], [], []⟩, frameOf "coatheal-1700000002".toList 1,
      frameOf "coatheal-1700000001".toList 1, frameOf "coatheal-1700000002".toList 2,
      frameOf "coatheal-1700000001".toList 2]).close
    [.command ⟨[], true, ⟨false, .finite 0⟩, [], [], []⟩, frameOf "coatheal-1700000002".toList 1,
      frameOf "coatheal-1700000001".toList 1, frameOf "coatheal-1700000002".toList 2,
      frameOf "coatheal-1700000001".toList 2] :=
  complete_of_opensOnce 20000 0 _ (by decide +kernel)

/-- A session's frame comes after its writers were closed for two newer sessions: its two rows are there, but
its metadata counts one. -/
theorem not_complete_reopened : ¬ Complete (run LogManager.step (.new 20000 0 fun _ => none)
    [frameOf "coatheal-1700000001".toList 1, frameOf "coatheal-1700000002".toList 1,
      frameOf "coatheal-1700000003".toList 1, frameOf "coatheal-1700000001".toList 2]).close
    [frameOf "coatheal-1700000001".toList 1, frameOf "coatheal-1700000002".toList 1,
      frameOf "coatheal-1700000003".toList 1, frameOf "coatheal-1700000001".toList 2] := by
  rintro ⟨home, hkept⟩
  have hhome : home "coatheal-1700000001".toList = ⟨1700000001, "coatheal-1700000001".toList⟩ := by
    have hrow := congrArg (fun rows => (rows.head?.map Prod.fst).getD ⟨0, []⟩) hkept.rows
    exact hrow.symm.trans (by decide +kernel)
  obtain ⟨data, hdata, hcounts⟩ := hkept.metas "coatheal-1700000001".toList List.mem_cons_self
  have hframes := congrArg (Option.map Meta.frames) hdata
  rw [hhome, Option.map_some, hcounts.frames] at hframes
  revert hframes
  decide +kernel

end Coatheal.Ground
