import Coatheal.Library.Halving
import Coatheal.Queue.Progress

/-!
# Replay by bisection

Replaying the middle of the longest run and taking its acknowledgement cuts the
run in two. An unbroken run is visited frame by frame, and the longest stretch
that is left is halved as often as the replays fill another level of the binary
tree of halves. Both rest on the index: a pending frame that is not indexed
under its own key is never taken out by its acknowledgement.
-/

namespace Coatheal.Queue

open Coatheal.Library Coatheal.Library.Text

namespace Backlog

variable {backlog : Backlog}

/-- The lengths of the runs. -/
def runLengths (backlog : Backlog) : List ℕ := backlog.runs.entries.map fun run => run.2 + 1 - run.1

/-- What is left of a run around a position, empty parts left out. -/
def parts (first last index : ℕ) : List (ℕ × ℕ) :=
  (if first < index then [(first, index - 1)] else []) ++ if index < last then [(index + 1, last)] else []

/-- A run is one of the parts if it is the part before the position or the part behind it. -/
theorem mem_parts {first last index start stop : ℕ} : (start, stop) ∈ parts first last index ↔
    (start = first ∧ stop + 1 = index) ∧ first < index ∨ (start = index + 1 ∧ stop = last) ∧ index < last := by
  unfold parts
  rw [List.mem_append]
  refine or_congr ?_ ?_
  · split
    · rw [List.mem_singleton, Prod.mk.injEq]
      omega
    · simp only [List.not_mem_nil, false_iff]
      omega
  · split
    · rw [List.mem_singleton, Prod.mk.injEq]
      omega
    · simp only [List.not_mem_nil, false_iff]
      omega

/-- The two parts of a run are different. -/
theorem parts_nodup (first last index : ℕ) : (parts first last index).Nodup := by
  unfold parts
  split <;> split <;> simp
  omega

/-- Taking a position out of a run replaces the run by its parts. -/
theorem removeLocked_runs_perm {first last index : ℕ} (h : backlog.Arranged)
    (hrun : IsRun backlog.pending first last) (hfirst : first ≤ index) (hlast : index ≤ last) :
    (backlog.removeLocked index).runs.entries.Perm
      (parts first last index ++ (backlog.runs.erase first).entries) := by
  have hafter := removeLocked_arranged h index
  obtain ⟨frame, hmem⟩ := hrun.filled index hfirst hlast
  have hpending : (backlog.removeLocked index).pending = backlog.pending \ {index} := removeLocked_pending hmem
  -- the parts start where no other run starts
  have hapart : ∀ run ∈ parts first last index, run ∉ (backlog.runs.erase first).entries := by
    rintro ⟨start, stop⟩ hpart hother
    obtain ⟨hne, hlisted⟩ := SortedMap.mem_erase.mp hother
    have hin := (h.runs_iff start stop).mp hlisted
    rcases mem_parts.mp hpart with ⟨⟨rfl, -⟩, -⟩ | ⟨⟨rfl, rfl⟩, hless⟩
    · exact hne rfl
    · exact hin.opens index rfl (hrun.filled index hfirst hlast)
  refine (List.perm_ext_iff_of_nodup ((SortedMap.keys_nodup _).of_map _) ?_).mpr ?_
  · exact (parts_nodup first last index).append ((SortedMap.keys_nodup _).of_map _) hapart
  · rintro ⟨start, stop⟩
    have hiff : (start, stop) ∈ (backlog.removeLocked index).runs ↔ _ := hafter.runs_iff start stop
    rw [hpending, isRun_remove hrun hfirst hlast, ← h.runs_iff] at hiff
    have herase : (start, stop) ∈ backlog.runs.erase first ↔ _ := SortedMap.mem_erase
    rw [List.mem_append, mem_parts, ← SortedMap.mem_iff, ← SortedMap.mem_iff, hiff, herase, or_assoc]

/-- The parts take the cuts of their lengths; an empty part takes none. -/
theorem totalCuts_parts {first last index : ℕ} (limit : ℕ) (hfirst : first ≤ index) (hlast : index ≤ last)
    (rest : List ℕ) : totalCuts limit ((parts first last index).map (fun run => run.2 + 1 - run.1) ++ rest) =
      totalCuts limit ((index - first) :: (last - index) :: rest) := by
  have hnone : cuts limit 0 = 0 := cuts_of_le (Nat.zero_le limit)
  have hfront : first < index → index - 1 + 1 - first = index - first := by omega
  have hback : last + 1 - (index + 1) = last - index := by omega
  unfold parts totalCuts
  split <;> split
  · simp [hfront ‹_›, hback]
  · have hempty : last - index = 0 := by omega
    simp [hfront ‹_›, hempty, hnone]
  · have hempty : index - first = 0 := by omega
    simp [hback, hempty, hnone]
  · have hempty : index - first = 0 := by omega
    have hemptyBack : last - index = 0 := by omega
    simp [hempty, hemptyBack, hnone]

/-- Taking out the middle of a longest run takes one cut off what is left to cut. -/
theorem removeLocked_totalCuts {first last : ℕ} (limit : ℕ) (h : backlog.Arranged)
    (hrun : IsRun backlog.pending first last)
    (hlongest : ∀ start stop, IsRun backlog.pending start stop → stop - start ≤ last - first) :
    totalCuts limit (backlog.removeLocked (first + (last - first) / 2)).runLengths =
      totalCuts limit backlog.runLengths - 1 := by
  have hle := hrun.le
  have hlisted := (h.runs_iff first last).mpr hrun
  have hafter := removeLocked_runs_perm h hrun (Nat.le_add_right first ((last - first) / 2)) (by omega)
  have hbefore := SortedMap.perm_erase hlisted
  have hrest : ∀ length ∈ (backlog.runs.erase first).entries.map (fun run => run.2 + 1 - run.1),
      length ≤ last + 1 - first := by
    intro length hlength
    obtain ⟨⟨start, stop⟩, hother, rfl⟩ := List.mem_map.mp hlength
    have hin := (h.runs_iff start stop).mp (SortedMap.mem_erase.mp hother).2
    have hshorter := hlongest start stop hin
    have hleOther := hin.le
    dsimp only
    omega
  have hfront : first + (last - first) / 2 - first = (last + 1 - first - 1) / 2 := by omega
  have hback : last - (first + (last - first) / 2) = (last + 1 - first) / 2 := by omega
  calc totalCuts limit (backlog.removeLocked (first + (last - first) / 2)).runLengths
      = totalCuts limit (_ :: _ :: (backlog.runs.erase first).entries.map fun run => run.2 + 1 - run.1) := by
        rw [runLengths, totalCuts_perm (hafter.map _), List.map_append,
          totalCuts_parts limit (by omega) (by omega), hfront, hback]
    _ = totalCuts limit ((last + 1 - first) :: (backlog.runs.erase first).entries.map _) - 1 :=
        totalCuts_halve hrest
    _ = totalCuts limit backlog.runLengths - 1 := by
        rw [runLengths, totalCuts_perm (hbefore.map _), List.map_cons]

/-- A position whose frame is pending and not indexed under its key. -/
def Unindexed (backlog : Backlog) (index : ℕ) : Prop :=
  ∃ frame, (index, frame) ∈ backlog.frames ∧ backlog.byKey.lookup frame.key ≠ some index

/-- If what the index finds is pending and the index is not right, some pending frame is not indexed. -/
theorem exists_unindexed (hsound : backlog.KeySound) (h : ¬ backlog.Keyed) :
    ∃ index, backlog.Unindexed index := by
  by_contra hnone
  refine h fun key index => ⟨hsound key index, ?_⟩
  rintro ⟨frame, hmem, rfl⟩
  by_contra hlookup
  exact hnone ⟨index, frame, hmem, hlookup⟩

/-- A frame that is not indexed stays so when another one is removed. -/
theorem Unindexed.removeLocked {index other : ℕ} (h : backlog.Unindexed index) (hne : other ≠ index) :
    (backlog.removeLocked other).Unindexed index := by
  by_cases hin : other ∈ backlog.pending
  · obtain ⟨found, hfound⟩ := hin
    obtain ⟨frame, hmem, hlookup⟩ := h
    obtain ⟨hframes, hkeys, -⟩ := removeLocked_spec hfound
    refine ⟨frame, ?_, ?_⟩
    · rw [hframes]
      exact SortedMap.mem_erase.mpr ⟨hne.symm, hmem⟩
    · rw [hkeys]
      split
      · by_cases hsame : frame.key = found.key
        · rw [hsame, AList.lookup_erase]
          simp
        · rwa [AList.lookup_erase_ne hsame]
      · exact hlookup
  · rwa [removeLocked_of_notMem hin]

/-- An unbroken stretch of pending frames is a single run. -/
theorem totalCuts_unbroken {first count : ℕ} (limit : ℕ) (h : backlog.Arranged)
    (hunbroken : backlog.pending = Set.Ico first (first + count)) :
    totalCuts limit backlog.runLengths = cuts limit count := by
  have hruns : ∀ start stop, (start, stop) ∈ backlog.runs → start = first ∧ stop + 1 = first + count := by
    intro start stop hlisted
    have hrun := (h.runs_iff start stop).mp hlisted
    have hstart := hrun.start_mem
    have hstop := hrun.stop_mem
    have hcloses := hrun.closes
    have hopens := hrun.opens (start - 1)
    rw [hunbroken] at hstart hstop hcloses hopens
    simp only [Set.mem_Ico] at hstart hstop hcloses hopens
    omega
  by_cases hnone : count = 0
  · have hentries : backlog.runs.entries = [] := by
      refine List.eq_nil_iff_forall_not_mem.mpr ?_
      rintro ⟨start, stop⟩ hlisted
      have hle := ((h.runs_iff start stop).mp hlisted).le
      have hends := hruns start stop hlisted
      omega
    rw [runLengths, hentries, hnone, cuts_of_le (Nat.zero_le limit)]
    rfl
  · have hlisted : (first, first + count - 1) ∈ backlog.runs := by
      refine (h.runs_iff _ _).mpr ⟨by omega, fun number hfrom hto => ?_, fun number hbefore hmem => ?_, fun hmem => ?_⟩
      · rw [hunbroken, Set.mem_Ico]
        omega
      · rw [hunbroken, Set.mem_Ico] at hmem
        omega
      · rw [hunbroken, Set.mem_Ico] at hmem
        omega
    have hothers : (backlog.runs.erase first).entries = [] := by
      refine List.eq_nil_iff_forall_not_mem.mpr ?_
      rintro ⟨start, stop⟩ hother
      obtain ⟨hne, hin⟩ := SortedMap.mem_erase.mp hother
      exact hne (hruns start stop hin).1
    have hlength : first + count - 1 + 1 - first = count := by omega
    rw [runLengths, totalCuts_perm ((SortedMap.perm_erase hlisted).map _), hothers]
    simp [totalCuts, hlength]

/-- The positions of the frames are those that are listed. -/
theorem pending_eq_Ico {first count : ℕ} (h : backlog.frames.entries.map Prod.fst = List.range' first count) :
    backlog.pending = Set.Ico first (first + count) := by
  ext index
  rw [Set.mem_Ico, ← List.mem_range'_1, ← h, List.mem_map]
  exact ⟨fun ⟨frame, hmem⟩ => ⟨(index, frame), hmem, rfl⟩, fun ⟨entry, hmem, hkey⟩ => ⟨entry.2, hkey ▸ hmem⟩⟩

/-- An unbroken stretch holds as many frames as it has positions. -/
theorem size_unbroken {first count : ℕ} (hunbroken : backlog.pending = Set.Ico first (first + count)) :
    backlog.frames.size = count := by
  have hkeys : (backlog.frames.entries.map Prod.fst).Perm (List.range' first count) := by
    refine (List.perm_ext_iff_of_nodup (SortedMap.keys_nodup _) List.nodup_range').mpr fun index => ?_
    have hpending : index ∈ backlog.pending ↔ index ∈ Set.Ico first (first + count) := by rw [hunbroken]
    rw [Set.mem_Ico] at hpending
    rw [List.mem_range'_1, ← hpending, List.mem_map]
    exact ⟨fun ⟨entry, hmem, hkey⟩ => ⟨entry.2, hkey ▸ hmem⟩, fun ⟨frame, hmem⟩ => ⟨(index, frame), hmem, rfl⟩⟩
  have hlength := hkeys.length_eq
  rwa [List.length_map, List.length_range'] at hlength

/-- Pending frames have positions of their own. -/
theorem Arranged.values_nodup (h : backlog.Arranged) : backlog.frames.values.Nodup := by
  refine List.Nodup.map_on ?_ ((SortedMap.keys_nodup _).of_map _)
  rintro ⟨index, frame⟩ hmem ⟨other, found⟩ hother rfl
  rw [← h.index_eq index frame hmem, ← h.index_eq other frame hother]

/-- An exact acknowledgement never finds a frame that is not indexed. -/
theorem Unindexed.exactPosition_ne {index : ℕ} (h : backlog.Unindexed index) (hsound : backlog.KeySound)
    (frame : QueuedTelemetryFrame) : backlog.exactPosition frame ≠ some index := by
  intro hposition
  obtain ⟨found, hfind, hkey, -⟩ := hsound.exactPosition hposition
  obtain ⟨own, hmem, hlookup⟩ := h
  rw [SortedMap.find?_eq_some.mpr hmem, Option.some.injEq] at hfind
  subst hfind
  unfold exactPosition at hposition
  split at hposition
  · exact absurd hposition (by simp)
  case h_2 position hfound =>
    rw [hkey] at hlookup
    split at hposition
    · exact absurd hposition (by simp)
    · split at hposition
      · exact absurd hposition (by simp)
      · exact hlookup (hfound.trans hposition)

end Backlog

namespace TelemetryQueue

variable {queue : TelemetryQueue}

/-- The frames that repeated replays hand out, each acknowledged before the next. -/
def visits (queue : TelemetryQueue) : List (ℤ × OperationIo) → List QueuedTelemetryFrame
  | [] => []
  | reply :: rest =>
    match queue.backlog.nextReplay with
    | .ok (some frame) => frame :: (queue.replay reply).visits rest
    | _ => (queue.replay reply).visits rest

/-- No frame is visited twice, as many replays as there are frames visit them all, after `2 ^ depth - 1`
replays no run is longer than the `2 ^ depth`-th part of them, and every replay is the middle of the
longest run, of the oldest one on a tie. -/
structure BisectionLaw (queue : TelemetryQueue) (count : ℕ) : Prop where
  once : ∀ replies, (queue.visits replies).Nodup
  all : ∀ replies, count ≤ replies.length → (queue.visits replies).Perm queue.backlog.frames.values
  halves : ∀ depth replies, replies.length = 2 ^ depth - 1 →
    ∀ start stop, IsRun (run replay queue replies).backlog.pending start stop →
      stop + 1 - start ≤ count / 2 ^ depth
  oldest : ∀ replies, (run replay queue replies).backlog.ReplaysLongest

/-- A replay with its acknowledgement takes the middle of a longest run out, and nothing else. -/
theorem replay_spec (harranged : queue.backlog.Arranged) (hkeyed : queue.backlog.Keyed)
    (reply : ℤ × OperationIo) :
    (queue.backlog.pending = ∅ ∧ queue.backlog.nextReplay = .ok none ∧ queue.replay reply = queue) ∨
      ∃ start stop frame, IsRun queue.backlog.pending start stop ∧
        (∀ otherStart otherStop, IsRun queue.backlog.pending otherStart otherStop →
          otherStop - otherStart ≤ stop - start) ∧
        (start + (stop - start) / 2, frame) ∈ queue.backlog.frames ∧
        queue.backlog.nextReplay = .ok (some frame) ∧
        (queue.backlog.removeLocked (start + (stop - start) / 2)).Settled (queue.replay reply).backlog := by
  rcases harranged.replaysLongest with ⟨hempty, hnone⟩ | ⟨start, stop, frame, hrun, hlongest, hmem, hsome⟩
  · refine Or.inl ⟨hempty, hnone, ?_⟩
    rw [replay, hnone]
  · refine Or.inr ⟨start, stop, frame, hrun, ?_, hmem, hsome, ?_⟩
    · intro otherStart otherStop hother
      rcases hlongest otherStart otherStop hother with hless | ⟨hsame, -⟩
      · exact hless.le
      · exact hsame.le
    · rw [replay, hsome]
      dsimp only
      rw [acknowledgeExact, Backlog.exactPosition_eq hkeyed hmem]
      exact settle_backlog _ reply.1 reply.2

/-- What a replay hands out and what is left after it are the frames from before. -/
theorem visits_replay (harranged : queue.backlog.Arranged) (hkeyed : queue.backlog.Keyed)
    (replies : List (ℤ × OperationIo)) :
    (queue.visits replies ++ (run replay queue replies).backlog.frames.values).Perm
      queue.backlog.frames.values := by
  induction replies generalizing queue with
  | nil => exact List.Perm.refl _
  | cons reply rest ih =>
    obtain ⟨hnext, -⟩ := replay_keeps ⟨harranged, hkeyed⟩ reply
    have hrest := ih hnext.1 hnext.2
    rw [visits, run_cons]
    rcases replay_spec harranged hkeyed reply with ⟨-, hnone, hsame⟩ | ⟨start, stop, frame, -, -, hmem, hsome, hafter⟩
    · rw [hnone]
      rw [hsame] at hrest ⊢
      exact hrest
    · rw [hsome]
      have hframes : (queue.replay reply).backlog.frames =
          queue.backlog.frames.erase (start + (stop - start) / 2) := by
        rcases hafter with hsettled | hsettled
        · rw [hsettled, (Backlog.removeLocked_spec hmem).1]
        · rw [hsettled, Backlog.compacted, (Backlog.removeLocked_spec hmem).1]
      have htaken : queue.backlog.frames.values.Perm (frame :: (queue.replay reply).backlog.frames.values) := by
        rw [hframes]
        exact (SortedMap.perm_erase hmem).map Prod.snd
      exact (hrest.cons frame).trans htaken.symm

/-- The cuts that are left after some replays are those from before, one less for each. -/
theorem run_totalCuts (limit : ℕ) (harranged : queue.backlog.Arranged) (hkeyed : queue.backlog.Keyed)
    (replies : List (ℤ × OperationIo)) :
    (run replay queue replies).backlog.Arranged ∧
      totalCuts limit (run replay queue replies).backlog.runLengths =
        totalCuts limit queue.backlog.runLengths - replies.length := by
  induction replies generalizing queue with
  | nil => exact ⟨harranged, rfl⟩
  | cons reply rest ih =>
    obtain ⟨hnext, -⟩ := replay_keeps ⟨harranged, hkeyed⟩ reply
    obtain ⟨hlater, hcuts⟩ := ih hnext.1 hnext.2
    refine ⟨hlater, ?_⟩
    rw [run_cons, hcuts, List.length_cons]
    rcases replay_spec harranged hkeyed reply with ⟨hempty, -, hsame⟩ | ⟨start, stop, frame, hrun, hlongest, hmem, -, hafter⟩
    · have hnone : queue.backlog.runs.entries = [] := by
        refine List.eq_nil_iff_forall_not_mem.mpr ?_
        rintro ⟨start, stop⟩ hlisted
        have hstart := ((harranged.runs_iff start stop).mp hlisted).start_mem
        rw [hempty] at hstart
        exact hstart
      rw [hsame, Backlog.runLengths, hnone]
      simp [totalCuts]
    · have hone := Backlog.removeLocked_totalCuts limit harranged hrun hlongest
      have hruns : (queue.replay reply).backlog.runLengths =
          (queue.backlog.removeLocked (start + (stop - start) / 2)).runLengths := by
        rcases hafter with hsettled | hsettled
        · rw [hsettled]
        · rw [hsettled]
          rfl
      rw [hruns, hone]
      omega

/-- An unbroken stretch of indexed frames is replayed by bisection. -/
theorem bisectionLaw_of_keyed {first count : ℕ} (harranged : queue.backlog.Arranged)
    (hkeyed : queue.backlog.Keyed) (hunbroken : queue.backlog.pending = Set.Ico first (first + count)) :
    queue.BisectionLaw count := by
  have hsize := Backlog.size_unbroken hunbroken
  constructor
  · intro replies
    have hall := (visits_replay harranged hkeyed replies).nodup_iff.mpr harranged.values_nodup
    exact hall.of_append_left
  · intro replies henough
    have hleft := (progresses_of_keyed harranged hkeyed).drains replies
    have hempty : (run replay queue replies).backlog.frames.size = 0 := by omega
    have hnone : (run replay queue replies).backlog.frames.values = [] := by
      rw [SortedMap.values, List.eq_nil_of_length_eq_zero hempty, List.map_nil]
    have hperm := visits_replay harranged hkeyed replies
    rwa [hnone, List.append_nil] at hperm
  · intro depth replies hreplies start stop hrun
    obtain ⟨hlater, hcuts⟩ := run_totalCuts (count / 2 ^ depth) harranged hkeyed replies
    have hfew := cuts_lt_two_pow (le_refl (count / 2 ^ depth))
    rw [Backlog.totalCuts_unbroken _ harranged hunbroken, hreplies] at hcuts
    have hlength : stop + 1 - start ∈ (run replay queue replies).backlog.runLengths :=
      List.mem_map.mpr ⟨(start, stop), (hlater.runs_iff start stop).mpr hrun, rfl⟩
    exact le_of_totalCuts_eq_zero (by omega) hlength
  · intro replies
    exact (run_totalCuts 0 harranged hkeyed replies).1.replaysLongest

/-- A replay keeps the tables in agreement, what the index finds pending and the frames that are not
indexed. -/
theorem replay_unindexed {index : ℕ} (harranged : queue.backlog.Arranged) (hsound : queue.backlog.KeySound)
    (h : queue.backlog.Unindexed index) (reply : ℤ × OperationIo) :
    ((queue.replay reply).backlog.Arranged ∧ (queue.replay reply).backlog.KeySound) ∧
      (queue.replay reply).backlog.Unindexed index := by
  unfold replay
  split
  case h_1 frame hnext =>
    refine ⟨⟨step_arranged queue (.acknowledgeExact reply.1 frame reply.2) harranged, ?_⟩, ?_⟩
    · obtain ⟨current, hremoved, hsettled⟩ := acknowledgeExact_backlog queue reply.1 frame reply.2
      have hcurrent : current.KeySound :=
        hremoved.keep (fun _ index hbefore => Backlog.removeLocked_keySound hbefore index) hsound
      exact hsettled.keep (fun _ hbefore => hbefore) hcurrent
    · unfold acknowledgeExact
      split
      · exact h
      case h_2 position hposition =>
        have hne : position ≠ index := fun hsame =>
          h.exactPosition_ne hsound frame (hsame ▸ hposition)
        have hsettled := settle_backlog { queue with backlog := queue.backlog.removeLocked position }
          reply.1 reply.2
        exact @Backlog.Settled.keep (fun current => current.Unindexed index) _ _ hsettled
          (fun _ hbefore => hbefore) (h.removeLocked hne)
  · exact ⟨⟨harranged, hsound⟩, h⟩

/-- While a frame that is not indexed is pending, every replay hands a frame out. -/
theorem visits_length {index : ℕ} (harranged : queue.backlog.Arranged) (hsound : queue.backlog.KeySound)
    (h : queue.backlog.Unindexed index) (replies : List (ℤ × OperationIo)) :
    (queue.visits replies).length = replies.length := by
  induction replies generalizing queue with
  | nil => rfl
  | cons reply rest ih =>
    obtain ⟨⟨hnextArranged, hnextSound⟩, hnext⟩ := replay_unindexed harranged hsound h reply
    rw [visits]
    rcases harranged.replaysLongest with ⟨hempty, -⟩ | ⟨start, stop, frame, -, -, -, hsome⟩
    · obtain ⟨found, hmem, -⟩ := h
      have hpending : index ∈ queue.backlog.pending := ⟨found, hmem⟩
      rw [hempty] at hpending
      exact absurd hpending (Set.notMem_empty index)
    · rw [hsome]
      dsimp only
      rw [List.length_cons, ih hnextArranged hnextSound hnext, List.length_cons]

/-- In every state of every run the tables agree and what the index finds is pending. -/
theorem run_keySound (config : QueueConfig) (file : Option (List Char)) (events : List QueueEvent) :
    (run step (new config file) events).backlog.Arranged ∧
      (run step (new config file) events).backlog.KeySound := by
  have hstart : (new config file).backlog.Arranged ∧ (new config file).backlog.KeySound :=
    ⟨Backlog.empty_arranged, fun _ _ hlookup => absurd hlookup (by simp [new, Backlog.empty])⟩
  exact (holds_of_step step_keySound (fun _ hkept => hkept) hstart events).last

/-- In every state of every run, an unbroken stretch of pending frames is replayed by bisection exactly
when each of them is indexed under its own key. -/
theorem bisectionLaw_iff_keyed (config : QueueConfig) (file : Option (List Char)) (events : List QueueEvent)
    (first count : ℕ)
    (h : (run step (new config file) events).backlog.pending = Set.Ico first (first + count)) :
    (run step (new config file) events).BisectionLaw count ↔
      (run step (new config file) events).backlog.Keyed := by
  obtain ⟨harranged, hsound⟩ := run_keySound config file events
  refine ⟨fun hlaw => ?_, fun hkeyed => bisectionLaw_of_keyed harranged hkeyed h⟩
  by_contra hkeys
  obtain ⟨index, hunindexed⟩ := Backlog.exists_unindexed hsound hkeys
  -- one replay more than there are frames still hands a frame out
  have henough := (hlaw.all (List.replicate count (0, .fine)) (by simp)).length_eq
  have hmore := (hlaw.all (List.replicate (count + 1) (0, .fine)) (by simp)).length_eq
  rw [visits_length harranged hsound hunindexed, List.length_replicate] at henough hmore
  omega

/-- Three frames come in on an empty disk. -/
def threeFrames : List QueueEvent :=
  [.restart 1000 .fine, .enqueue 1000 1 (sampleFrame 1 "DATA,1") .fine,
    .enqueue 1001 2 (sampleFrame 2 "DATA,2") .fine, .enqueue 1002 3 (sampleFrame 3 "DATA,3") .fine]

/-- The three frames are pending without a gap. -/
theorem bisectionLaw_iff_keyed_threeFrames :
    (run step (new sampleConfig none) threeFrames).BisectionLaw 3 ↔
      (run step (new sampleConfig none) threeFrames).backlog.Keyed :=
  bisectionLaw_iff_keyed sampleConfig none threeFrames 0 3 (Backlog.pending_eq_Ico (by decide +kernel))

/-- The frame that was written twice is pending twice, without a gap, and one of the two is replayed
over and over. -/
theorem retriedEnqueue_not_bisectionLaw :
    (run step (new sampleConfig none) retriedEnqueue).backlog.pending = Set.Ico 0 2 ∧
      ¬ (run step (new sampleConfig none) retriedEnqueue).BisectionLaw 2 := by
  have hkeys : (run step (new sampleConfig none) retriedEnqueue).backlog.frames.entries.map Prod.fst =
      List.range' 0 2 := by decide +kernel
  refine ⟨Backlog.pending_eq_Ico hkeys, fun hlaw => ?_⟩
  exact absurd (hlaw.once [(10, .fine), (11, .fine)]) (by decide +kernel)

end TelemetryQueue

end Coatheal.Queue
