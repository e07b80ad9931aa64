import Coatheal.Library.Text

/-!
# Queued frames and their lines

A frame of the telemetry queue is kept in the queue file as one line: the time
it was queued, its session, its sequence number and its text, separated by
tabs. A text is a list of characters, one for each byte. What is written as a
line is read back; a line that breaks off keeps its session and number or is
not read at all.
-/

namespace Coatheal.Queue

open Coatheal.Library.Text

/-- A frame in the queue. The index is its position in the queue and is never persisted. -/
structure QueuedTelemetryFrame where
  queuedEpochS : Int64
  sessionId : List Char
  seq : UInt64
  frame : List Char
  index : ℕ
deriving DecidableEq, Repr

namespace QueuedTelemetryFrame

/-- What exact acknowledgement identifies a frame by. -/
def key (frame : QueuedTelemetryFrame) : List Char × UInt64 := (frame.sessionId, frame.seq)

/-- The frame without its position. -/
def content (frame : QueuedTelemetryFrame) : QueuedTelemetryFrame := { frame with index := 0 }

/-- The frame reports a completed pull. -/
def isEventFrame (frame : QueuedTelemetryFrame) : Bool := "EVT,".toList.isPrefixOf frame.frame

/-- A frame whose line is read back: a session id and a text, both on one line, the session without
a tab. -/
structure WellFormed (frame : QueuedTelemetryFrame) : Prop where
  session_ne_nil : frame.sessionId ≠ []
  session_tab : '\t' ∉ frame.sessionId
  session_line : '\n' ∉ frame.sessionId
  text_ne_nil : frame.frame ≠ []
  text_line : '\n' ∉ frame.frame

/-- Well-formedness can be told. -/
instance (frame : QueuedTelemetryFrame) : Decidable frame.WellFormed :=
  decidable_of_iff (frame.sessionId ≠ [] ∧ '\t' ∉ frame.sessionId ∧ '\n' ∉ frame.sessionId ∧
      frame.frame ≠ [] ∧ '\n' ∉ frame.frame)
    ⟨fun ⟨hsession, htab, hline, htext, hbreak⟩ => ⟨hsession, htab, hline, htext, hbreak⟩,
      fun h => ⟨h.session_ne_nil, h.session_tab, h.session_line, h.text_ne_nil, h.text_line⟩⟩

end QueuedTelemetryFrame

/-- The line of a frame in the queue file. -/
def formatLine (frame : QueuedTelemetryFrame) : List Char :=
  showInt64 frame.queuedEpochS ++ '\t' ::
    (frame.sessionId ++ '\t' :: (showNat frame.seq.toNat ++ '\t' :: frame.frame))

/-- A line of the queue file as a frame. -/
def parseLine (line : List Char) : Option QueuedTelemetryFrame := do
  let (epoch, afterEpoch) ← cut '\t' line
  let (session, afterSession) ← cut '\t' afterEpoch
  let (number, text) ← cut '\t' afterSession
  let queuedEpochS ← stoll epoch
  let seq ← stoull number
  if session ≠ [] ∧ text ≠ [] then some ⟨queuedEpochS, session, seq, text, 0⟩ else none

/-- The bytes of a frame's line with its line break. -/
def lineBytes (frame : QueuedTelemetryFrame) : ℕ := (formatLine frame).length + 1

/-- The lines of some frames as they stand in the queue file. -/
def fileText (frames : List QueuedTelemetryFrame) : List Char := putlines '\n' (frames.map formatLine)

/-- The frames that the lines of a file parse to. -/
def parsedFrames (text : List Char) : List QueuedTelemetryFrame :=
  (getlines '\n' text).filterMap parseLine

variable {frame : QueuedTelemetryFrame}

/-- A printed integer has neither a tab nor a line break. -/
theorem showInt64_plain (value : Int64) : '\t' ∉ showInt64 value ∧ '\n' ∉ showInt64 value := by
  constructor
  · intro hmem
    rcases showInt_chars hmem with hdigit | hminus
    · exact absurd hdigit (by decide)
    · exact absurd hminus (by decide)
  · intro hmem
    rcases showInt_chars hmem with hdigit | hminus
    · exact absurd hdigit (by decide)
    · exact absurd hminus (by decide)

/-- A printed number has neither a tab nor a line break. -/
theorem showNat_plain (value : ℕ) : '\t' ∉ showNat value ∧ '\n' ∉ showNat value :=
  ⟨fun hmem => absurd (showNat_digits hmem) (by decide), fun hmem => absurd (showNat_digits hmem) (by decide)⟩

/-- The line of a well-formed frame is one line. -/
theorem formatLine_plain (h : frame.WellFormed) : '\n' ∉ formatLine frame := by
  simp [formatLine, (showInt64_plain frame.queuedEpochS).2, (showNat_plain frame.seq.toNat).2, h.session_line,
    h.text_line]

/-- The first characters of a line are read as the whole line is, as long as they reach into its
text. -/
theorem parseLine_take_of_tab (htab : '\t' ∉ frame.sessionId) (count : ℕ) :
    parseLine ((formatLine frame).take count) = none ∨
      ∃ text, parseLine ((formatLine frame).take count) =
        some { frame with frame := text, index := 0 } := by
  unfold parseLine formatLine
  rw [cut_take (showInt64_plain frame.queuedEpochS).1]
  split
  · exact Or.inl rfl
  simp only [Option.bind_eq_bind, Option.bind_some]
  rw [cut_take htab]
  split
  · exact Or.inl rfl
  simp only [Option.bind_some]
  rw [cut_take (showNat_plain frame.seq.toNat).1]
  split
  · exact Or.inl rfl
  simp only [Option.bind_some, stoll_showInt64, stoull_showNat]
  split
  · exact Or.inr ⟨_, rfl⟩
  · exact Or.inl rfl

/-- The first characters of the line of a well-formed frame are read as the whole line is. -/
theorem parseLine_take (h : frame.WellFormed) (count : ℕ) :
    parseLine ((formatLine frame).take count) = none ∨
      ∃ text, parseLine ((formatLine frame).take count) =
        some { frame with frame := text, index := 0 } :=
  parseLine_take_of_tab h.session_tab count

/-- A line that breaks off keeps the session and the number of its frame, if it is read at all. -/
theorem parseLine_take_key {count : ℕ} {found : QueuedTelemetryFrame} (h : frame.WellFormed)
    (hfound : parseLine ((formatLine frame).take count) = some found) : found.key = frame.key := by
  rcases parseLine_take h count with hnone | ⟨text, hsome⟩
  · exact absurd (hnone.symm.trans hfound) (by simp)
  · rw [← Option.some.inj (hsome.symm.trans hfound)]
    rfl

/-- The line of a frame whose session has no tab is read back, unless the session or the text is empty. -/
theorem parseLine_formatLine_eq (htab : '\t' ∉ frame.sessionId) : parseLine (formatLine frame) =
    if frame.sessionId ≠ [] ∧ frame.frame ≠ [] then some frame.content else none := by
  unfold parseLine formatLine
  simp only [Option.bind_eq_bind, Option.bind_some, cut_append (showInt64_plain frame.queuedEpochS).1,
    cut_append htab, cut_append (showNat_plain frame.seq.toNat).1, stoll_showInt64, stoull_showNat]
  rfl

/-- The line of a well-formed frame is read back. -/
theorem parseLine_formatLine (h : frame.WellFormed) : parseLine (formatLine frame) = some frame.content := by
  rw [parseLine_formatLine_eq h.session_tab, if_pos ⟨h.session_ne_nil, h.text_ne_nil⟩]

/-- For every frame whose session has no tab, the line is read back exactly if neither the session nor the text is empty, and
what is read from any first part of the line is of the same time, session and number. -/
theorem line_identity (frame : QueuedTelemetryFrame) (htab : '\t' ∉ frame.sessionId) :
    parseLine (formatLine frame) = (if frame.sessionId ≠ [] ∧ frame.frame ≠ [] then some frame.content else none) ∧
    ∀ part found, part <+: formatLine frame → parseLine part = some found →
      found.queuedEpochS = frame.queuedEpochS ∧ found.sessionId = frame.sessionId ∧ found.seq = frame.seq := by
  refine ⟨parseLine_formatLine_eq htab, fun part found hpart hfound => ?_⟩
  rw [List.prefix_iff_eq_take.mp hpart] at hfound
  rcases parseLine_take_of_tab htab part.length with hnone | ⟨text, hsome⟩
  · exact absurd (hnone.symm.trans hfound) (by simp)
  · rw [← Option.some.inj (hsome.symm.trans hfound)]
    exact ⟨rfl, rfl, rfl⟩

/-- A frame whose session has no tab. -/
theorem line_identity_event :
    parseLine (formatLine ⟨7, "s".toList, 1, "EVT,PULL".toList, 3⟩) = some ⟨7, "s".toList, 1, "EVT,PULL".toList, 0⟩ :=
  (line_identity ⟨7, "s".toList, 1, "EVT,PULL".toList, 3⟩ (by decide)).1

/-- Not every line is read back: one with an empty text is rejected. -/
theorem not_line_identity_emptyText : ¬ ∀ frame : QueuedTelemetryFrame, '\n' ∉ frame.frame → '\t' ∉ frame.sessionId →
    '\n' ∉ frame.sessionId → parseLine (formatLine frame) = some frame.content := by
  intro hall
  have hread := hall ⟨7, "s".toList, 1, [], 0⟩ (by decide) (by decide) (by decide)
  rw [parseLine_formatLine_eq (by decide)] at hread
  exact absurd hread (by decide)

/-- What is read from one line is well formed and has no position yet. -/
theorem parseLine_wellFormed {line : List Char} (hline : '\n' ∉ line) (h : parseLine line = some frame) :
    frame.WellFormed ∧ frame.index = 0 := by
  unfold parseLine at h
  simp only [Option.bind_eq_bind, Option.bind_eq_some_iff, Prod.exists] at h
  obtain ⟨epoch, afterEpoch, hepoch, session, afterSession, hsession, number, text, hnumber, queuedEpochS,
    -, seq, -, hframe⟩ := h
  obtain ⟨rfl, -⟩ := cut_eq_some hepoch
  obtain ⟨rfl, htab⟩ := cut_eq_some hsession
  obtain ⟨rfl, -⟩ := cut_eq_some hnumber
  simp only [List.mem_append, List.mem_cons, not_or] at hline
  split at hframe
  case isTrue hne =>
    obtain rfl := Option.some.inj hframe
    exact ⟨⟨hne.1, htab, hline.2.2.1, hne.2, hline.2.2.2.2.2.2⟩, rfl⟩
  case isFalse => exact absurd hframe (by simp)

/-- The frames that a file parses to are well formed and have no position yet. -/
theorem parsedFrames_wellFormed {text : List Char} (h : frame ∈ parsedFrames text) :
    frame.WellFormed ∧ frame.index = 0 := by
  obtain ⟨line, hline, hparse⟩ := List.mem_filterMap.mp h
  exact parseLine_wellFormed (notMem_getlines hline) hparse

/-- The lines of well-formed frames are read back, before whatever follows them. -/
theorem parsedFrames_fileText_append {frames : List QueuedTelemetryFrame}
    (h : ∀ frame ∈ frames, frame.WellFormed) (rest : List Char) :
    parsedFrames (fileText frames ++ rest) =
      frames.map QueuedTelemetryFrame.content ++ parsedFrames rest := by
  have hplain : ∀ line ∈ frames.map formatLine, '\n' ∉ line := by
    intro line hline
    obtain ⟨frame, hframe, rfl⟩ := List.mem_map.mp hline
    exact formatLine_plain (h frame hframe)
  have hread : (frames.map formatLine).filterMap parseLine = frames.map QueuedTelemetryFrame.content := by
    rw [List.filterMap_map, ← List.filterMap_eq_map]
    exact List.filterMap_congr fun frame hframe => parseLine_formatLine (h frame hframe)
  rw [parsedFrames, fileText, getlines_putlines_append hplain, List.filterMap_append, hread]
  rfl

/-- The lines of well-formed frames are read back. -/
theorem parsedFrames_fileText {frames : List QueuedTelemetryFrame} (h : ∀ frame ∈ frames, frame.WellFormed) :
    parsedFrames (fileText frames) = frames.map QueuedTelemetryFrame.content := by
  have hread := parsedFrames_fileText_append h []
  rwa [List.append_nil, show parsedFrames [] = [] from rfl, List.append_nil] at hread

/-- One more frame is one more line. -/
theorem fileText_append (frames : List QueuedTelemetryFrame) (frame : QueuedTelemetryFrame) :
    fileText (frames ++ [frame]) = fileText frames ++ (formatLine frame ++ ['\n']) := by
  simp [fileText, putlines]

/-- A file of lines is as long as its lines with their line breaks. -/
theorem length_fileText (frames : List QueuedTelemetryFrame) :
    (fileText frames).length = (frames.map lineBytes).sum := by
  induction frames with
  | nil => rfl
  | cons frame frames ih =>
    have hcons : fileText (frame :: frames) = formatLine frame ++ '\n' :: fileText frames := by
      simp [fileText, putlines]
    rw [hcons, List.length_append, List.length_cons, ih, List.map_cons, List.sum_cons, lineBytes]
    omega

/-- What reaches the file of a line and its break is read as no frame, or as one with the key of the
line's frame. -/
theorem parsedFrames_take (h : frame.WellFormed) (count : ℕ) :
    parsedFrames ((formatLine frame ++ ['\n']).take count) = [] ∨
      ∃ found, parsedFrames ((formatLine frame ++ ['\n']).take count) = [found] ∧
        found.key = frame.key := by
  by_cases hbroken : count ≤ (formatLine frame).length
  · have htake : (formatLine frame ++ ['\n']).take count = (formatLine frame).take count := by
      rw [List.take_append_of_le_length hbroken]
    rw [htake, parsedFrames]
    by_cases hempty : (formatLine frame).take count = []
    · rw [hempty]
      exact Or.inl rfl
    · have hplain : '\n' ∉ (formatLine frame).take count := fun hmem =>
        formatLine_plain h (List.mem_of_mem_take hmem)
      rw [getlines_last hplain hempty]
      cases hparse : parseLine ((formatLine frame).take count) with
      | none => exact Or.inl (List.filterMap_cons_none hparse)
      | some found => exact Or.inr ⟨found, List.filterMap_cons_some hparse, parseLine_take_key h hparse⟩
  · have hwhole : (formatLine frame ++ ['\n']).take count = fileText [frame] := by
      rw [List.take_of_length_le (by rw [List.length_append, List.length_singleton]; omega)]
      simp [fileText, putlines]
    have hread := @parsedFrames_fileText [frame] (by simpa using h)
    rw [hwhole, hread]
    exact Or.inr ⟨frame.content, rfl, rfl⟩

/-- A position does not show in a key. -/
theorem content_keys (frames : List QueuedTelemetryFrame) :
    (frames.map QueuedTelemetryFrame.content).map QueuedTelemetryFrame.key =
      frames.map QueuedTelemetryFrame.key := by
  rw [List.map_map]
  rfl

end Coatheal.Queue
