import Coatheal.Queue.Durability

/-!
# Replays make progress

The acknowledgement of a frame that the queue handed out removes exactly that
frame when the keys of the pending frames are indexed, and replaying then
empties the queue. Across restarts the keys stay distinct for as long as the
lines of the file have keys of their own: the frames that come in are new, none
is written a second time by the append behind the compaction that regained
persistence, no compaction loses bytes and no file is left unread.
-/

namespace Coatheal.Queue

open Coatheal.Library Coatheal.Library.Text

namespace Backlog

variable {backlog : Backlog}

/-- The pending frames have keys of their own when the keys are indexed. -/
theorem Keyed.keys_nodup (h : backlog.Keyed) : (backlog.frames.values.map QueuedTelemetryFrame.key).Nodup := by
  rw [SortedMap.values, List.map_map]
  refine List.Nodup.map_on ?_ (backlog.frames.keys_nodup.of_map _)
  intro entry hentry other hother hkey
  have hindex : entry.1 = other.1 := h.eq_of_key_eq hentry hother hkey
  exact SortedMap.eq_of_key_eq hentry hother hindex

/-- An exact acknowledgement of a pending frame finds its position. -/
theorem exactPosition_eq {index : ℕ} {frame : QueuedTelemetryFrame} (h : backlog.Keyed)
    (hmem : (index, frame) ∈ backlog.frames) : backlog.exactPosition frame = some index := by
  have hindex : backlog.byKey.lookup frame.key = some index := (h frame.key index).mpr ⟨frame, hmem, rfl⟩
  simp [exactPosition, hindex, SortedMap.find?_eq_some.mpr hmem]

end Backlog

namespace TelemetryQueue

variable {queue after : TelemetryQueue}

/-- A frame that the queue hands out: as the next replay, at a position or as a pending pull event. -/
def Offers (queue : TelemetryQueue) (frame : QueuedTelemetryFrame) : Prop :=
  queue.backlog.nextReplay = .ok (some frame) ∨ (∃ index, queue.backlog.frameAt index = some frame) ∨
    ∃ maxFrames frames, queue.backlog.pendingEvents maxFrames = .ok frames ∧ frame ∈ frames

/-- Replay the next frame and take its acknowledgement. -/
def replay (queue : TelemetryQueue) (reply : ℤ × OperationIo) : TelemetryQueue :=
  match queue.backlog.nextReplay with
  | .ok (some frame) => queue.acknowledgeExact reply.1 frame reply.2
  | _ => queue

/-- The acknowledgement of a frame that is handed out removes exactly that frame, and every replay
that is acknowledged leaves one frame less until none is left. -/
structure Progresses (queue : TelemetryQueue) : Prop where
  removes : ∀ frame, queue.Offers frame → ∀ steady io,
    (queue.acknowledgeExact steady frame io).backlog.frames = queue.backlog.frames.erase frame.index ∧
      (frame.index, frame) ∈ queue.backlog.frames
  drains : ∀ replies, (run replay queue replies).backlog.frames.size =
    queue.backlog.frames.size - replies.length

/-- Every frame the queue hands out is pending at its position. -/
theorem Offers.mem {frame : QueuedTelemetryFrame} (h : queue.Offers frame)
    (harranged : queue.backlog.Arranged) : (frame.index, frame) ∈ queue.backlog.frames := by
  rcases h with hreplay | ⟨index, hat⟩ | ⟨maxFrames, frames, hevents, hframe⟩
  · rcases harranged.replaysLongest with ⟨-, hnone⟩ | ⟨start, stop, found, -, -, hmem, hfound⟩
    · exact absurd (hnone.symm.trans hreplay) (by simp)
    · obtain rfl : found = frame := by simpa using hfound.symm.trans hreplay
      rwa [harranged.index_eq _ found hmem]
  · have hmem := SortedMap.find?_eq_some.mp hat
    rwa [harranged.index_eq index frame hmem]
  · obtain ⟨found, hfound, hall⟩ := harranged.pendingEvents_ok maxFrames
    obtain rfl : found = frames := by simpa using hfound.symm.trans hevents
    exact (hall frame hframe).2

/-- The acknowledgement of a pending frame removes exactly that frame. -/
theorem acknowledgeExact_frames {index : ℕ} {frame : QueuedTelemetryFrame} (hkeyed : queue.backlog.Keyed)
    (hmem : (index, frame) ∈ queue.backlog.frames) (steady : ℤ) (io : OperationIo) :
    (queue.acknowledgeExact steady frame io).backlog.frames = queue.backlog.frames.erase index := by
  unfold acknowledgeExact
  rw [Backlog.exactPosition_eq hkeyed hmem]
  have hremoved : (queue.backlog.removeLocked index).frames = queue.backlog.frames.erase index :=
    (Backlog.removeLocked_spec hmem).1
  rcases settle_backlog { queue with backlog := queue.backlog.removeLocked index } steady io with
    hsame | hsame
  · rw [hsame]
    exact hremoved
  · rw [hsame]
    exact hremoved

/-- A replay keeps the tables in agreement and the keys indexed, and leaves one frame less. -/
theorem replay_keeps (h : queue.backlog.Arranged ∧ queue.backlog.Keyed) (reply : ℤ × OperationIo) :
    ((queue.replay reply).backlog.Arranged ∧ (queue.replay reply).backlog.Keyed) ∧
      (queue.replay reply).backlog.frames.size = queue.backlog.frames.size - 1 := by
  unfold replay
  rcases h.1.replaysLongest with ⟨hempty, hnone⟩ | ⟨start, stop, frame, -, -, hmem, hsome⟩
  · rw [hnone]
    refine ⟨h, ?_⟩
    have hentries : queue.backlog.frames.entries = [] := by
      rw [List.eq_nil_iff_forall_not_mem]
      intro entry hentry
      have hpending : entry.1 ∈ queue.backlog.pending := ⟨entry.2, hentry⟩
      rw [hempty] at hpending
      exact hpending
    dsimp only
    rw [SortedMap.size, hentries]
    rfl
  · rw [hsome]
    refine ⟨⟨?_, ?_⟩, ?_⟩
    · exact step_arranged queue (.acknowledgeExact reply.1 frame reply.2) h.1
    · exact step_keyed queue (.acknowledgeExact reply.1 frame reply.2) h.1 h.2 trivial
    · have hsize := SortedMap.size_erase hmem
      rw [acknowledgeExact_frames h.2 hmem]
      omega

/-- With the tables in agreement and the keys indexed, replays make progress. -/
theorem progresses_of_keyed (harranged : queue.backlog.Arranged) (hkeyed : queue.backlog.Keyed) :
    queue.Progresses := by
  constructor
  · intro frame hoffers steady io
    have hmem := hoffers.mem harranged
    exact ⟨acknowledgeExact_frames hkeyed hmem steady io, hmem⟩
  · intro replies
    have hall : ∀ current : TelemetryQueue, current.backlog.Arranged ∧ current.backlog.Keyed →
        (run replay current replies).backlog.frames.size =
          current.backlog.frames.size - replies.length := by
      induction replies with
      | nil =>
        intro current _
        rfl
      | cons reply rest ih =>
        intro current hcurrent
        obtain ⟨hnext, hsize⟩ := replay_keeps hcurrent reply
        rw [run_cons, ih _ hnext, hsize, List.length_cons]
        omega
    exact hall queue ⟨harranged, hkeyed⟩

/-- The append behind the compaction that regained persistence repeats enough of the frame's line
for it to be read. -/
def Repeats (queue : TelemetryQueue) (now steady : ℤ) (frame : QueuedTelemetryFrame) (io : OperationIo) :
    Prop :=
  queue.persistenceEnabled = false ∧ (queue.retried now steady frame io).persistenceEnabled = true ∧
    io.append.opens = true ∧ parsedFrames (io.append.written (appended frame)) ≠ []

/-- Repeating can be told. -/
instance (queue : TelemetryQueue) (now steady : ℤ) (frame : QueuedTelemetryFrame) (io : OperationIo) :
    Decidable (queue.Repeats now steady frame io) :=
  inferInstanceAs (Decidable (_ ∧ _ ∧ _ ∧ _))

/-- A frame whose session and number are neither pending nor on a line of the file. -/
def IsNew (queue : TelemetryQueue) (frame : QueuedTelemetryFrame) : Prop :=
  frame.key ∉ queue.backlog.frames.values.map QueuedTelemetryFrame.key ∧
    frame.key ∉ (parsedFrames (queue.file.getD [])).map QueuedTelemetryFrame.key

/-- A new frame can be told. -/
instance (queue : TelemetryQueue) (frame : QueuedTelemetryFrame) : Decidable (queue.IsNew frame) :=
  inferInstanceAs (Decidable (_ ∧ _))

/-- The file is read when it is there, no compaction loses bytes as it closes its file, and frames
that come in fit on a line, are new and are not repeated. -/
def KeepsKeys (queue : TelemetryQueue) : QueueEvent → Prop
  | .restart _ io => queue.ReadsFile io ∧ io.compact.closes = true
  | .reload _ io => queue.ReadsFile io ∧ io.compact.closes = true
  | .enqueue now steady frame io =>
    (frame.WellFormed ∧ queue.IsNew frame) ∧
      (io.retry.compact.closes = true ∧ io.compact.closes = true) ∧ ¬ queue.Repeats now steady frame io
  | .acknowledge _ _ _ io => io.retry.compact.closes = true ∧ io.compact.closes = true
  | .acknowledgeExact _ _ io => io.retry.compact.closes = true ∧ io.compact.closes = true

/-- Keeping the keys can be told. -/
instance (queue : TelemetryQueue) : (event : QueueEvent) → Decidable (queue.KeepsKeys event)
  | .restart _ _ => inferInstanceAs (Decidable (_ ∧ _))
  | .reload _ _ => inferInstanceAs (Decidable (_ ∧ _))
  | .enqueue _ _ _ _ => inferInstanceAs (Decidable ((_ ∧ _) ∧ (_ ∧ _) ∧ _))
  | .acknowledge _ _ _ _ => inferInstanceAs (Decidable (_ ∧ _))
  | .acknowledgeExact _ _ _ => inferInstanceAs (Decidable (_ ∧ _))

/-- The pending frames and the lines of the file have keys of their own, and while persistence is on
the file ends with a whole line. -/
structure Distinct (queue : TelemetryQueue) : Prop where
  arranged : queue.backlog.Arranged
  keyed : queue.backlog.Keyed
  sound : queue.backlog.Sound
  lineKeys : ((parsedFrames (queue.file.getD [])).map QueuedTelemetryFrame.key).Nodup
  whole : queue.persistenceEnabled = true →
    ∃ lines, queue.file.getD [] = fileText lines ∧ ∀ frame ∈ lines, frame.WellFormed

/-- A compaction that loses nothing writes lines with keys of their own. -/
theorem Compaction.distinct {io : CompactIo} (h : Compaction queue io after)
    (harranged : queue.backlog.Arranged) (hkeyed : queue.backlog.Keyed) (hsound : queue.backlog.Sound)
    (hlines : ((parsedFrames (queue.file.getD [])).map QueuedTelemetryFrame.key).Nodup)
    (hcloses : io.closes = true) : after.Distinct := by
  cases h with
  | done =>
    have hsettled : queue.backlog.Settled queue.backlog.compacted := Or.inr rfl
    have hreadable : ∀ frame ∈ queue.backlog.frames.values, frame.WellFormed := fun frame hframe =>
      hsound frame (List.mem_append_left _ hframe)
    have hfile : (queue.commit (queue.temporary io)).file.getD [] = fileText queue.backlog.frames.values := by
      rw [commit, temporary, if_pos hcloses, Option.getD_some]
    refine ⟨hsettled.arranged harranged, hsettled.keyed hkeyed, hsettled.sound hsound, ?_,
      fun _ => ⟨_, hfile, hreadable⟩⟩
    rw [hfile, parsedFrames_fileText hreadable, content_keys]
    exact hkeyed.keys_nodup
  | failed file hfile =>
    refine ⟨harranged, hkeyed, hsound, ?_, fun h => absurd h (by simp)⟩
    rcases hfile with rfl | rfl
    · exact hlines
    · exact List.nodup_nil

/-- A compaction that may be put off keeps the keys distinct. -/
theorem maybeCompactLocked_distinct {io : CompactIo} (h : queue.Distinct) (hcloses : io.closes = true) :
    (queue.maybeCompactLocked io).Distinct := by
  rcases maybeCompactLocked_cases queue io with hsame | ⟨-, hcompaction⟩
  · rwa [hsame]
  · exact hcompaction.distinct h.arranged h.keyed h.sound h.lineKeys hcloses

/-- Trying persistence again keeps the keys distinct. -/
theorem retryPersistenceLocked_distinct {io : RetryIo} (h : queue.Distinct) (now : ℤ)
    (hcloses : io.compact.closes = true) : (queue.retryPersistenceLocked now io).Distinct := by
  rcases retryPersistenceLocked_cases queue now io with hsame | ⟨hoff, next, hwaiting | hcompaction⟩
  · rwa [hsame]
  · rw [hwaiting]
    exact ⟨h.arranged, h.keyed, h.sound, h.lineKeys, h.whole⟩
  · exact hcompaction.distinct h.arranged h.keyed h.sound h.lineKeys hcloses

/-- Removing frames keeps the keys distinct, whatever is compacted after it. -/
theorem removed_distinct {current : Backlog} (h : queue.Distinct)
    (hremoved : Backlog.Removed queue.backlog current) (steady : ℤ) {io : OperationIo}
    (hretry : io.retry.compact.closes = true) (hcompact : io.compact.closes = true) :
    ({ queue with backlog := current }.settle steady io).Distinct := by
  have hcurrent : Distinct { queue with backlog := current } :=
    ⟨hremoved.arranged h.arranged, hremoved.keyed h.keyed, hremoved.sound h.sound, h.lineKeys, h.whole⟩
  exact maybeCompactLocked_distinct (retryPersistenceLocked_distinct hcurrent steady hretry) hcompact

/-- Initializing keeps the keys distinct. -/
theorem Initialized.distinct {now : ℤ} {io : InitializeIo} (h : Initialized queue now io after)
    (hbacklog : queue.backlog.Arranged ∧ queue.backlog.Keyed ∧ queue.backlog.Sound)
    (hlines : ((parsedFrames (queue.file.getD [])).map QueuedTelemetryFrame.key).Nodup)
    (hread : queue.ReadsFile io) (hcloses : io.compact.closes = true) : after.Distinct := by
  obtain ⟨harranged, hkeyed, hsound⟩ := hbacklog
  cases h with
  | noDirectory hdir => exact ⟨harranged, hkeyed, hsound, hlines, fun h => absurd h (by simp)⟩
  | notCreated hdir hcreate hmissing =>
    exact ⟨Backlog.empty_arranged, Backlog.empty_keyed, Backlog.empty_sound, hlines,
      fun h => absurd h (by simp)⟩
  | created hdir hcreate hmissing =>
    have hempty : queue.file.getD [] = [] := by
      rcases hmissing with hunread | hnone
      · exact hread hdir hcreate hunread
      · rw [hnone]
        rfl
    refine ⟨Backlog.empty_arranged, Backlog.empty_keyed, Backlog.empty_sound, hlines, fun _ => ⟨[], ?_, ?_⟩⟩
    · exact hempty
    · exact fun frame hframe => absurd hframe List.not_mem_nil
  | loaded after text hdir hopens hfile hcompaction =>
    rw [hfile, Option.getD_some] at hlines
    have hloaded : ((loadedFrames queue.config.retentionS now text).map QueuedTelemetryFrame.key).Nodup :=
      hlines.sublist (List.filter_sublist.map _)
    have hfilled : (queue.load now text).backlog.Keyed :=
      Backlog.insertAll_keyed Backlog.empty_keyed Backlog.empty_arranged hloaded
        fun _ _ _ _ hmem => absurd hmem SortedMap.notMem_empty
    refine hcompaction.distinct (Backlog.insertAll_arranged Backlog.empty_arranged _) hfilled
      (Backlog.insertAll_sound Backlog.empty_sound Backlog.empty_arranged fun _ => loadedFrames_wellFormed)
      ?_ hcloses
    have htext : (queue.load now text).file.getD [] = text := by
      rw [load, hfile, Option.getD_some]
    rwa [htext]

/-- More text behind whole lines keeps the keys distinct if it is read as no frame or as one with a
key of its own. -/
theorem lineKeys_append {lines : List QueuedTelemetryFrame} {text : List Char} {key : List Char × UInt64}
    (hreadable : ∀ frame ∈ lines, frame.WellFormed)
    (hlines : ((parsedFrames (fileText lines)).map QueuedTelemetryFrame.key).Nodup)
    (htext : parsedFrames text = [] ∨ ∃ found, parsedFrames text = [found] ∧ found.key = key)
    (hfresh : parsedFrames text ≠ [] →
      key ∉ (parsedFrames (fileText lines)).map QueuedTelemetryFrame.key) :
    ((parsedFrames (fileText lines ++ text)).map QueuedTelemetryFrame.key).Nodup := by
  rw [parsedFrames_fileText_append hreadable, ← parsedFrames_fileText hreadable, List.map_append]
  rcases htext with hnone | ⟨found, hfound, hkey⟩
  · rwa [hnone, List.map_nil, List.append_nil]
  · have hnew := hfresh (by rw [hfound]; simp)
    rw [hfound, List.map_singleton, hkey]
    refine hlines.append (List.nodup_singleton _) ?_
    rw [List.disjoint_singleton]
    exact hnew

/-- Enqueuing a new frame that is not repeated keeps the keys distinct. -/
theorem enqueue_distinct {now steady : ℤ} {frame : QueuedTelemetryFrame} {io : OperationIo}
    (h : queue.Distinct) (hframe : frame.WellFormed) (hnew : queue.IsNew frame)
    (hretry : io.retry.compact.closes = true) (hcompact : io.compact.closes = true)
    (hrepeats : ¬ queue.Repeats now steady frame io) : (queue.enqueue now steady frame io).2.Distinct := by
  have hremoved := Backlog.pruneLocked_removed (queue.backlog.insertLocked frame) queue.config.retentionS
    queue.config.maxBytes now
  have hinserted := Backlog.insertLocked_keyed h.keyed h.arranged fun index found hmem hkey =>
    hnew.1 (List.mem_map.mpr ⟨found, List.mem_map.mpr ⟨_, hmem, rfl⟩, hkey⟩)
  have hstored : (queue.store now frame).Distinct :=
    ⟨hremoved.arranged (Backlog.insertLocked_arranged h.arranged frame), hremoved.keyed hinserted,
      hremoved.sound (Backlog.insertLocked_sound h.sound h.arranged hframe), h.lineKeys, h.whole⟩
  have hkept : (queue.retried now steady frame io).Distinct :=
    retryPersistenceLocked_distinct hstored steady hretry
  -- what is appended to a file that is not the one before the call is not read as a frame
  have hfresh : (queue.retried now steady frame io).persistenceEnabled = true → io.append.opens = true →
      parsedFrames (io.append.written (appended frame)) ≠ [] →
      frame.key ∉ (parsedFrames ((queue.retried now steady frame io).file.getD [])).map
        QueuedTelemetryFrame.key := by
    intro hon hopens hread
    have henabled : queue.persistenceEnabled = true := by
      by_contra hoff
      exact hrepeats ⟨Bool.eq_false_iff.mpr hoff, hon, hopens, hread⟩
    have hsame : queue.retried now steady frame io = queue.store now frame := by
      rcases retryPersistenceLocked_cases (queue.store now frame) steady io.retry with hsame | ⟨hoff, -⟩
      · exact hsame
      · exact absurd (hoff.symm.trans henabled) (by simp)
    rw [hsame]
    exact hnew.2
  have htail := fun count => parsedFrames_take hframe count
  have hcases := enqueue_cases queue now steady frame io
  generalize (queue.enqueue now steady frame io).2 = after at hcases ⊢
  generalize queue.retried now steady frame io = retried at hcases hkept hfresh
  cases hcases with
  | memoryOnly hoff => exact hkept
  | notOpened hon hopens =>
    exact ⟨hkept.arranged, hkept.keyed, hkept.sound, hkept.lineKeys, fun h => absurd h (by simp)⟩
  | torn hon hopens hflushes =>
    obtain ⟨lines, hfile, hreadable⟩ := hkept.whole hon
    have hwritten : io.append.written (appended frame) = (appended frame).take io.append.kept := by
      rw [AppendIo.written, hflushes]
      rfl
    have hlines := hkept.lineKeys
    have hnotThere := hfresh hon hopens
    rw [hwritten] at hnotThere
    rw [hfile] at hlines hnotThere
    refine ⟨hkept.arranged, hkept.keyed, hkept.sound, ?_, fun h => absurd h (by simp)⟩
    have htext : (retried.extend ((appended frame).take io.append.kept)).file.getD [] =
        fileText lines ++ (appended frame).take io.append.kept := by
      rw [extend, Option.getD_some, hfile]
    dsimp only
    rw [htext]
    exact lineKeys_append hreadable hlines (htail _) hnotThere
  | whole hon hopens hflushes =>
    obtain ⟨lines, hfile, hreadable⟩ := hkept.whole hon
    have hwritten : io.append.written (appended frame) = appended frame := by
      rw [AppendIo.written, hflushes]
      rfl
    have hlines := hkept.lineKeys
    have hnotThere := hfresh hon hopens
    rw [hwritten] at hnotThere
    rw [hfile] at hlines hnotThere
    have htext : (retried.extend (appended frame)).file.getD [] = fileText lines ++ appended frame := by
      rw [extend, Option.getD_some, hfile]
    have hall : (appended frame).take (appended frame).length = appended frame := List.take_length
    refine maybeCompactLocked_distinct ⟨hkept.arranged, hkept.keyed, hkept.sound, ?_, fun _ => ?_⟩ hcompact
    · rw [htext]
      refine lineKeys_append hreadable hlines ?_ hnotThere
      have hread := htail (appended frame).length
      rwa [← appended, hall] at hread
    · refine ⟨lines ++ [frame], ?_, ?_⟩
      · rw [htext, fileText_append, appended]
      · intro found hfound
        rcases List.mem_append.mp hfound with hold | hlast
        · exact hreadable found hold
        · rwa [List.mem_singleton.mp hlast]

/-- An event that keeps the keys keeps them distinct. -/
theorem step_distinct (queue : TelemetryQueue) (event : QueueEvent) (h : queue.Distinct)
    (hkeeps : queue.KeepsKeys event) : (queue.step event).Distinct := by
  cases event with
  | restart now io =>
    exact (initializeQueue_cases (new queue.config queue.file) now io).distinct
      ⟨Backlog.empty_arranged, Backlog.empty_keyed, Backlog.empty_sound⟩ h.lineKeys hkeeps.1 hkeeps.2
  | reload now io =>
    exact (initializeQueue_cases queue now io).distinct ⟨h.arranged, h.keyed, h.sound⟩ h.lineKeys hkeeps.1
      hkeeps.2
  | enqueue now steady frame io =>
    obtain ⟨⟨hframe, hnew⟩, ⟨hretry, hcompact⟩, hrepeats⟩ := hkeeps
    exact enqueue_distinct h hframe hnew hretry hcompact hrepeats
  | acknowledge steady sessionId seq io =>
    unfold step acknowledge
    dsimp only
    split
    · exact h
    · exact removed_distinct h (Backlog.foldl_removed _ _) steady hkeeps.1 hkeeps.2
  | acknowledgeExact steady frame io =>
    unfold step acknowledgeExact
    dsimp only
    split
    · exact h
    case h_2 index hindex =>
      exact removed_distinct h (Backlog.Removed.refl.remove index) steady hkeeps.1 hkeeps.2

/-- A new queue on a disk without a queue file has no key twice. -/
theorem new_distinct (config : QueueConfig) : (new config none).Distinct :=
  ⟨Backlog.empty_arranged, Backlog.empty_keyed, Backlog.empty_sound, List.nodup_nil,
    fun _ => ⟨[], rfl, fun _ hframe => absurd hframe List.not_mem_nil⟩⟩

/-- In every run that keeps the keys, replays make progress in every state. -/
theorem progresses_of_keepsKeys {config : QueueConfig} {events : List QueueEvent}
    (h : Meets step KeepsKeys (new config none) events) : Holds step Progresses (new config none) events :=
  holds_of_meets step_distinct (fun _ hdistinct => progresses_of_keyed hdistinct.arranged hdistinct.keyed)
    (new_distinct config) h

/-- The run that regains persistence by an acknowledgement keeps the keys. -/
theorem progresses_of_keepsKeys_regainedPersistence :
    Holds step Progresses (new sampleConfig none) regainedPersistence :=
  progresses_of_keepsKeys (by decide +kernel)

/-- After the frame that was written twice is loaded twice, one of the two is acknowledged in place
of the other, and that one is replayed for ever. -/
theorem retriedEnqueue_not_progresses : ¬ Holds step Progresses (new sampleConfig none) retriedEnqueue := by
  intro h
  have hdrained := h.last.drains [(10, .fine), (11, .fine)]
  exact absurd hdrained (by decide +kernel)

end TelemetryQueue

end Coatheal.Queue
