import Coatheal.Queue.Backlog

/-!
# The tables of the queue agree

Inserting and removing a frame keep the run tables, the pull events and the
byte counts in agreement with the pending frames, whatever the frames are. The
index by session and number agrees with them for as long as no two pending
frames share their key. In agreement the next frame to replay is the middle
one of the longest, on a tie the oldest, run.
-/

namespace Coatheal.Queue

open Coatheal.Library

/-- A key of the map is fetched. -/
theorem fetch_eq_ok {V : Type} {map : SortedMap ℕ V} {key : ℕ} {value : V} (h : (key, value) ∈ map) :
    fetch map key = .ok value := by
  rw [fetch, SortedMap.find?_eq_some.mpr h]

/-- A length key tells its run's start. -/
theorem lengthKey_start {start stop otherStart otherStop : ℕ}
    (h : lengthKey start stop = lengthKey otherStart otherStop) : start = otherStart :=
  congrArg (fun key => (ofLex key).2) h

namespace Backlog

variable {backlog : Backlog}

/-- Listing a run whose start is not listed keeps the tables in step. -/
theorem SameRuns.addRun {start : ℕ} (h : backlog.SameRuns) (stop : ℕ)
    (hfree : ∀ other, (start, other) ∉ backlog.runs) : (backlog.addRun start stop).SameRuns := by
  intro key
  unfold Backlog.addRun
  simp only [SortedMap.mem_insert, h key]
  constructor
  · rintro (hsame | ⟨-, otherStart, otherStop, hmem, rfl⟩)
    · exact ⟨start, stop, Or.inl rfl, congrArg Prod.fst hsame⟩
    · refine ⟨otherStart, otherStop, Or.inr ⟨?_, hmem⟩, rfl⟩
      rintro rfl
      exact hfree otherStop hmem
  · rintro ⟨otherStart, otherStop, hsame | ⟨hne, hmem⟩, rfl⟩
    · obtain ⟨rfl, rfl⟩ := Prod.mk.inj hsame
      exact Or.inl rfl
    · exact Or.inr ⟨fun hkey => hne (lengthKey_start hkey), otherStart, otherStop, hmem, rfl⟩

/-- A run whose start is not listed is listed under a condition. -/
theorem addRun_if {start stop : ℕ} {condition : Prop} [Decidable condition] (h : backlog.SameRuns)
    (hfree : condition → ∀ other, (start, other) ∉ backlog.runs) :
    (∀ entry, entry ∈ (if condition then backlog.addRun start stop else backlog).runs ↔
      condition ∧ entry = (start, stop) ∨ entry ∈ backlog.runs) ∧
    (if condition then backlog.addRun start stop else backlog).SameRuns := by
  by_cases hcondition : condition
  · rw [if_pos hcondition]
    refine ⟨fun entry => ?_, h.addRun stop (hfree hcondition)⟩
    rw [Backlog.addRun, SortedMap.mem_insert, and_iff_right hcondition]
    refine or_congr_right ⟨fun hentry => hentry.2, fun hentry => ⟨?_, hentry⟩⟩
    rintro rfl
    exact hfree hcondition entry.2 hentry
  · rw [if_neg hcondition]
    refine ⟨fun entry => ?_, h⟩
    rw [or_iff_right fun hboth => hcondition hboth.1]

/-- Taking a listed run out keeps the tables in step. -/
theorem SameRuns.eraseRun {start stop : ℕ} (h : backlog.SameRuns)
    (hmem : (start, stop) ∈ backlog.runs) : (backlog.eraseRun start stop).SameRuns := by
  intro key
  unfold Backlog.eraseRun
  simp only [SortedMap.mem_erase, h key]
  constructor
  · rintro ⟨hne, otherStart, otherStop, hother, rfl⟩
    refine ⟨otherStart, otherStop, ⟨?_, hother⟩, rfl⟩
    rintro rfl
    rw [SortedMap.value_unique hother hmem] at hne
    exact hne rfl
  · rintro ⟨otherStart, otherStop, ⟨hne, hother⟩, rfl⟩
    exact ⟨fun hkey => hne (lengthKey_start hkey), otherStart, otherStop, hother, rfl⟩

/-- What a change of the run tables leaves alone. -/
def SameFrames (before after : Backlog) : Prop :=
  after.frames = before.frames ∧ after.byKey = before.byKey ∧ after.events = before.events ∧
    after.nextIndex = before.nextIndex ∧ after.liveBytes = before.liveBytes ∧
    after.deadBytes = before.deadBytes ∧ after.retired = before.retired

/-- Placing a position changes the run tables only. -/
theorem placeInRuns_same (backlog : Backlog) (index : ℕ) : SameFrames backlog (backlog.placeInRuns index) := by
  unfold placeInRuns
  split
  · split
    · exact ⟨rfl, rfl, rfl, rfl, rfl, rfl, rfl⟩
    · exact ⟨rfl, rfl, rfl, rfl, rfl, rfl, rfl⟩
  · exact ⟨rfl, rfl, rfl, rfl, rfl, rfl, rfl⟩

/-- Splitting a run changes the run tables only. -/
theorem splitRun_same (backlog : Backlog) (index : ℕ) : SameFrames backlog (backlog.splitRun index) := by
  unfold splitRun
  split
  · exact ⟨rfl, rfl, rfl, rfl, rfl, rfl, rfl⟩
  · split
    · exact ⟨rfl, rfl, rfl, rfl, rfl, rfl, rfl⟩
    · split
      · split <;> exact ⟨rfl, rfl, rfl, rfl, rfl, rfl, rfl⟩
      · split <;> exact ⟨rfl, rfl, rfl, rfl, rfl, rfl, rfl⟩

/-- A position beyond all members of the runs is placed among them. -/
theorem placeInRuns_runs {members : Set ℕ} {index : ℕ} (hbound : ∀ other ∈ members, other < index)
    (hruns : ∀ start stop, (start, stop) ∈ backlog.runs ↔ IsRun members start stop)
    (hsame : backlog.SameRuns) :
    (∀ start stop, (start, stop) ∈ (backlog.placeInRuns index).runs ↔
      IsRun (insert index members) start stop) ∧ (backlog.placeInRuns index).SameRuns := by
  have hfree : ∀ other, (index, other) ∉ backlog.runs := by
    intro other hmem
    have hless := hbound index ((hruns index other).mp hmem).start_mem
    omega
  have halone : (∀ last, last + 1 = index → last ∉ members) →
      (∀ start stop, (start, stop) ∈ (backlog.addRun index index).runs ↔
        IsRun (insert index members) start stop) ∧ (backlog.addRun index index).SameRuns := by
    intro hgap
    refine ⟨fun start stop => ?_, hsame.addRun index hfree⟩
    rw [isRun_insert_alone hbound hgap, ← hruns, Backlog.addRun, SortedMap.mem_insert, Prod.mk.injEq]
    refine or_congr_right ⟨fun h => h.2, fun h => ⟨?_, h⟩⟩
    rintro rfl
    exact hfree stop h
  unfold placeInRuns
  cases hlast : backlog.runs.last? with
  | none =>
    refine halone fun last _ hmem => ?_
    obtain ⟨start, stop, hrun, -, -⟩ := exists_run hbound hmem
    exact SortedMap.last?_eq_none hlast _ ((hruns start stop).mpr hrun)
  | some entry =>
    obtain ⟨start, stop⟩ := entry
    obtain ⟨hmem, hlargest⟩ := SortedMap.last?_eq_some hlast
    have hrun := (hruns start stop).mp hmem
    dsimp only
    by_cases hends : stop + 1 = index
    · rw [if_pos hends]
      have herased := hsame.eraseRun hmem
      have hfreed : ∀ other, (start, other) ∉ (backlog.eraseRun start stop).runs := fun other h =>
        (SortedMap.mem_erase.mp h).1 rfl
      refine ⟨fun otherStart otherStop => ?_, herased.addRun index hfreed⟩
      subst hends
      rw [isRun_insert_extend hbound hrun, ← hruns, Backlog.addRun, SortedMap.mem_insert, Prod.mk.injEq,
        Backlog.eraseRun, SortedMap.mem_erase]
      refine or_congr_right ⟨fun h => h.2, fun h => ⟨h.1, h⟩⟩
    · rw [if_neg hends]
      refine halone fun last hnext hin => ?_
      obtain ⟨otherStart, otherStop, hother, hfrom, hto⟩ := exists_run hbound hin
      have hstop := hbound stop hrun.stop_mem
      have hstopOther := hbound otherStop hother.stop_mem
      have hle := hrun.le
      have hbefore : otherStart ≤ start := hlargest _ ((hruns otherStart otherStop).mpr hother)
      have hstarts : start = otherStart :=
        hrun.start_eq hother ⟨le_rfl, hle⟩ ⟨hbefore, by omega⟩
      subst hstarts
      have hstops : stop = otherStop := hrun.stop_eq hother
      omega

/-- The run that held a position is split around it. -/
theorem splitRun_runs {members : Set ℕ} {index bound : ℕ} (hbound : ∀ other ∈ members, other < bound)
    (hin : index ∈ members)
    (hruns : ∀ start stop, (start, stop) ∈ backlog.runs ↔ IsRun members start stop)
    (hsame : backlog.SameRuns) :
    (∀ start stop, (start, stop) ∈ (backlog.splitRun index).runs ↔
      IsRun (members \ {index}) start stop) ∧ (backlog.splitRun index).SameRuns := by
  obtain ⟨first, last, hheld, hfirst, hlast⟩ := exists_run hbound hin
  have hheldMem := (hruns first last).mpr hheld
  unfold splitRun
  cases hfloor : backlog.runs.floor? index with
  | none =>
    have hbeyond := SortedMap.floor?_eq_none hfloor _ hheldMem
    exact absurd hfirst (not_le.mpr hbeyond)
  | some entry =>
    obtain ⟨start, stop⟩ := entry
    obtain ⟨hmem, hle, hlargest⟩ := SortedMap.floor?_eq_some hfloor
    have hrun := (hruns start stop).mp hmem
    have hafter : first ≤ start := hlargest _ hheldMem hfirst
    have hrunLe := hrun.le
    dsimp only at hle ⊢
    obtain rfl : first = start := hheld.start_eq hrun ⟨hafter, by omega⟩ ⟨le_rfl, hrunLe⟩
    obtain rfl : last = stop := hheld.stop_eq hrun
    rw [if_neg (not_lt.mpr hlast)]
    have herased := hsame.eraseRun hmem
    have hfreeFirst : ∀ other, (first, other) ∉ (backlog.eraseRun first last).runs := fun other h =>
      (SortedMap.mem_erase.mp h).1 rfl
    obtain ⟨hfrontRuns, hfrontSame⟩ := @addRun_if _ first (index - 1) (first < index) _ herased
      fun _ => hfreeFirst
    have hfreeBehind : ∀ other, (index + 1, other) ∉
        (if first < index then (backlog.eraseRun first last).addRun first (index - 1)
          else backlog.eraseRun first last).runs := by
      intro other h
      rcases (hfrontRuns _).mp h with ⟨hless, heq⟩ | hold
      · have hstart := congrArg Prod.fst heq
        dsimp only at hstart
        omega
      · have hother := (hruns (index + 1) other).mp (SortedMap.mem_erase.mp hold).2
        exact hother.opens index rfl hin
    obtain ⟨hbackRuns, hbackSame⟩ := @addRun_if _ (index + 1) last (index < last) _ hfrontSame
      fun _ => hfreeBehind
    refine ⟨fun start stop => ?_, hbackSame⟩
    rw [hbackRuns, hfrontRuns, isRun_remove hrun hfirst hlast, ← hruns, Backlog.eraseRun,
      SortedMap.mem_erase, Prod.mk.injEq, Prod.mk.injEq]
    constructor
    · rintro (⟨hless, rfl, rfl⟩ | ⟨hless, rfl, rfl⟩ | hold)
      · exact Or.inr (Or.inl ⟨⟨rfl, rfl⟩, hless⟩)
      · exact Or.inl ⟨⟨rfl, by omega⟩, hless⟩
      · exact Or.inr (Or.inr hold)
    · rintro (⟨⟨rfl, hnext⟩, hless⟩ | ⟨⟨rfl, rfl⟩, hless⟩ | hold)
      · exact Or.inr (Or.inl ⟨hless, rfl, by omega⟩)
      · exact Or.inl ⟨hless, rfl, rfl⟩
      · exact Or.inr (Or.inr hold)

/-- What inserting a frame leaves behind, the run tables apart. -/
theorem insertLocked_spec (backlog : Backlog) (frame : QueuedTelemetryFrame) :
    let after := backlog.insertLocked frame
    after.frames = backlog.frames.insert backlog.nextIndex { frame with index := backlog.nextIndex } ∧
      after.byKey = backlog.byKey.insert frame.key backlog.nextIndex ∧
      after.events = (if frame.isEventFrame then backlog.events.insert backlog.nextIndex ()
        else backlog.events) ∧
      after.nextIndex = backlog.nextIndex + 1 ∧
      after.liveBytes = backlog.liveBytes + lineBytes frame ∧
      after.deadBytes = backlog.deadBytes ∧ after.retired = backlog.retired := by
  unfold insertLocked
  dsimp only
  obtain ⟨hframes, hkeys, hevents, hnext, hlive, hdead, hretired⟩ := placeInRuns_same
    { backlog with
      nextIndex := backlog.nextIndex + 1
      liveBytes := backlog.liveBytes + lineBytes frame
      byKey := backlog.byKey.insert frame.key backlog.nextIndex
      events := if frame.isEventFrame then backlog.events.insert backlog.nextIndex () else backlog.events }
    backlog.nextIndex
  rw [hframes, hkeys, hevents, hnext, hlive, hdead, hretired]
  exact ⟨rfl, rfl, rfl, rfl, rfl, rfl, rfl⟩

/-- What removing a pending frame leaves behind, the run tables apart. -/
theorem removeLocked_spec {index : ℕ} {frame : QueuedTelemetryFrame}
    (h : (index, frame) ∈ backlog.frames) :
    let after := backlog.removeLocked index
    after.frames = backlog.frames.erase index ∧
      after.byKey = (if backlog.byKey.lookup frame.key = some index then backlog.byKey.erase frame.key
        else backlog.byKey) ∧
      after.events = backlog.events.erase index ∧ after.nextIndex = backlog.nextIndex ∧
      after.liveBytes = backlog.liveBytes - lineBytes frame ∧
      after.deadBytes = backlog.deadBytes + lineBytes frame ∧
      after.retired = backlog.retired ++ [frame] := by
  unfold removeLocked
  rw [SortedMap.find?_eq_some.mpr h]
  exact splitRun_same _ index

/-- Removing a position that is not pending does nothing. -/
theorem removeLocked_of_notMem {index : ℕ} (h : index ∉ backlog.pending) :
    backlog.removeLocked index = backlog := by
  have hnone : backlog.frames.find? index = none :=
    SortedMap.find?_eq_none.mpr fun frame hmem => h ⟨frame, hmem⟩
  rw [removeLocked, hnone]

/-- Inserting a frame adds its position. -/
theorem insertLocked_pending (backlog : Backlog) (frame : QueuedTelemetryFrame) :
    (backlog.insertLocked frame).pending = insert backlog.nextIndex backlog.pending := by
  ext index
  rw [pending, (insertLocked_spec backlog frame).1]
  simp only [Set.mem_ofPred_eq, Set.mem_insert_iff, SortedMap.mem_insert, Prod.mk.injEq]
  constructor
  · rintro ⟨found, ⟨rfl, -⟩ | ⟨-, hmem⟩⟩
    · exact Or.inl rfl
    · exact Or.inr ⟨found, hmem⟩
  · rintro (rfl | ⟨found, hmem⟩)
    · exact ⟨_, Or.inl ⟨rfl, rfl⟩⟩
    · by_cases hsame : index = backlog.nextIndex
      · exact ⟨_, Or.inl ⟨hsame, rfl⟩⟩
      · exact ⟨found, Or.inr ⟨hsame, hmem⟩⟩

/-- Removing a pending frame takes its position out. -/
theorem removeLocked_pending {index : ℕ} {frame : QueuedTelemetryFrame}
    (h : (index, frame) ∈ backlog.frames) :
    (backlog.removeLocked index).pending = backlog.pending \ {index} := by
  ext other
  rw [pending, (removeLocked_spec h).1]
  simp only [Set.mem_ofPred_eq, Set.mem_sdiff, Set.mem_singleton_iff, SortedMap.mem_erase]
  constructor
  · rintro ⟨found, hne, hmem⟩
    exact ⟨⟨found, hmem⟩, hne⟩
  · rintro ⟨⟨found, hmem⟩, hne⟩
    exact ⟨found, hne, hmem⟩

/-- Inserting appends to the frames in their order. -/
theorem insertLocked_values (h : backlog.Arranged) (frame : QueuedTelemetryFrame) :
    (backlog.insertLocked frame).frames.values =
      backlog.frames.values ++ [{ frame with index := backlog.nextIndex }] := by
  have hlast : ∀ other ∈ backlog.frames, other.1 < backlog.nextIndex := fun other hmem =>
    h.index_lt other.1 ⟨other.2, hmem⟩
  rw [(insertLocked_spec backlog frame).1, SortedMap.values, SortedMap.entries_insert_last hlast,
    List.map_append]
  rfl

/-- Removing takes one frame out of the frames in their order. -/
theorem removeLocked_values {index : ℕ} {frame : QueuedTelemetryFrame}
    (h : (index, frame) ∈ backlog.frames) :
    (backlog.removeLocked index).frames.values.Sublist backlog.frames.values ∧
      backlog.frames.values.Perm (frame :: (backlog.removeLocked index).frames.values) := by
  rw [(removeLocked_spec h).1]
  exact ⟨List.filter_sublist.map Prod.snd, (SortedMap.perm_erase h).map Prod.snd⟩

/-- No frame, no table entry. -/
theorem empty_arranged : Arranged empty := by
  have hnone : empty.pending = ∅ := by
    ext index
    simp [pending, empty]
  refine ⟨?_, ?_, ?_, ?_, ?_, rfl, rfl⟩
  · intro index frame h
    exact absurd h SortedMap.notMem_empty
  · intro index h
    rw [hnone] at h
    exact absurd h (Set.notMem_empty index)
  · intro start stop
    rw [hnone]
    constructor
    · intro h
      exact absurd h SortedMap.notMem_empty
    · intro h
      exact absurd h.start_mem (Set.notMem_empty start)
  · intro key
    simp [empty]
  · intro index
    simp [empty]

/-- Inserting a frame keeps the tables in agreement. -/
theorem insertLocked_arranged (h : backlog.Arranged) (frame : QueuedTelemetryFrame) :
    (backlog.insertLocked frame).Arranged := by
  obtain ⟨hframes, -, hevents, hnext, hlive, hdead, hretired⟩ := insertLocked_spec backlog frame
  have hruns := @placeInRuns_runs
    { backlog with
      nextIndex := backlog.nextIndex + 1
      liveBytes := backlog.liveBytes + lineBytes frame
      byKey := backlog.byKey.insert frame.key backlog.nextIndex
      events := if frame.isEventFrame then backlog.events.insert backlog.nextIndex () else backlog.events }
    backlog.pending backlog.nextIndex h.index_lt h.runs_iff h.same_runs
  refine ⟨?_, ?_, ?_, ?_, ?_, ?_, ?_⟩
  · intro index found hmem
    rw [hframes, SortedMap.mem_insert] at hmem
    rcases hmem with hsame | ⟨-, hmem⟩
    · obtain ⟨rfl, rfl⟩ := Prod.mk.inj hsame
      rfl
    · exact h.index_eq index found hmem
  · intro index hmem
    rw [insertLocked_pending] at hmem
    rw [hnext]
    rcases hmem with rfl | hmem
    · exact Nat.lt_succ_self _
    · exact Nat.lt_succ_of_lt (h.index_lt index hmem)
  · intro start stop
    rw [insertLocked_pending]
    exact hruns.1 start stop
  · exact hruns.2
  · intro index
    rw [hevents, hframes]
    simp only [SortedMap.mem_insert, Prod.mk.injEq]
    by_cases hsame : index = backlog.nextIndex
    · subst hsame
      have hfree : (backlog.nextIndex, ()) ∉ backlog.events := by
        intro hmem
        obtain ⟨found, hfound, -⟩ := (h.events_iff _).mp hmem
        have hless := h.index_lt _ ⟨found, hfound⟩
        omega
      cases hevent : frame.isEventFrame with
      | true =>
        rw [if_pos rfl, SortedMap.mem_insert]
        exact ⟨fun _ => ⟨_, Or.inl ⟨rfl, rfl⟩, hevent⟩, fun _ => Or.inl rfl⟩
      | false =>
        rw [if_neg Bool.false_ne_true]
        refine ⟨fun hmem => absurd hmem hfree, ?_⟩
        rintro ⟨found, ⟨-, rfl⟩ | ⟨hne, -⟩, hfound⟩
        · exact absurd (hevent.symm.trans hfound) Bool.false_ne_true
        · exact absurd rfl hne
    · have hkept : (index, ()) ∈ (if frame.isEventFrame then backlog.events.insert backlog.nextIndex ()
          else backlog.events) ↔ (index, ()) ∈ backlog.events := by
        split
        · rw [SortedMap.mem_insert, Prod.mk.injEq]
          exact ⟨fun hmem => hmem.elim (fun heq => absurd heq.1 hsame) (fun hmem => hmem.2),
            fun hmem => Or.inr ⟨hsame, hmem⟩⟩
        · exact Iff.rfl
      rw [hkept, h.events_iff]
      refine exists_congr fun found => and_congr_left fun _ => ?_
      exact ⟨fun hmem => Or.inr ⟨hsame, hmem⟩,
        fun hmem => hmem.elim (fun heq => absurd heq.1 hsame) (fun hmem => hmem.2)⟩
  · rw [hlive, insertLocked_values h, List.map_append, List.sum_append, h.live_eq]
    rfl
  · rw [hdead, hretired]
    exact h.dead_eq

/-- Removing a position keeps the tables in agreement. -/
theorem removeLocked_arranged (h : backlog.Arranged) (index : ℕ) : (backlog.removeLocked index).Arranged := by
  by_cases hin : index ∈ backlog.pending
  · obtain ⟨frame, hmem⟩ := hin
    obtain ⟨hframes, -, hevents, hnext, hlive, hdead, hretired⟩ := removeLocked_spec hmem
    have hpending := removeLocked_pending hmem
    have hruns : (∀ start stop, (start, stop) ∈ (backlog.removeLocked index).runs ↔
        IsRun (backlog.pending \ {index}) start stop) ∧ (backlog.removeLocked index).SameRuns := by
      unfold removeLocked
      rw [SortedMap.find?_eq_some.mpr hmem]
      exact splitRun_runs h.index_lt ⟨frame, hmem⟩ h.runs_iff h.same_runs
    refine ⟨?_, ?_, ?_, hruns.2, ?_, ?_, ?_⟩
    · intro other found hfound
      rw [hframes, SortedMap.mem_erase] at hfound
      exact h.index_eq other found hfound.2
    · intro other hother
      rw [hpending] at hother
      rw [hnext]
      exact h.index_lt other hother.1
    · rw [hpending]
      exact hruns.1
    · intro other
      rw [hevents, hframes]
      simp only [SortedMap.mem_erase, h.events_iff]
      constructor
      · rintro ⟨hne, found, hfound, hevent⟩
        exact ⟨found, ⟨hne, hfound⟩, hevent⟩
      · rintro ⟨found, ⟨hne, hfound⟩, hevent⟩
        exact ⟨hne, found, hfound, hevent⟩
    · have hsum := ((removeLocked_values hmem).2.map lineBytes).sum_nat
      rw [List.map_cons, List.sum_cons] at hsum
      rw [hlive, h.live_eq]
      omega
    · rw [hdead, hretired, List.map_append, List.sum_append, h.dead_eq]
      rfl
  · rw [removeLocked_of_notMem hin]
    exact h

/-- Two pending frames with one key are one frame, where the keys are indexed. -/
theorem Keyed.eq_of_key_eq {index other : ℕ} {frame found : QueuedTelemetryFrame} (h : backlog.Keyed)
    (hmem : (index, frame) ∈ backlog.frames) (hfound : (other, found) ∈ backlog.frames)
    (hkey : frame.key = found.key) : index = other := by
  have hindex := (h frame.key index).mpr ⟨frame, hmem, rfl⟩
  have hother := (h frame.key other).mpr ⟨found, hfound, hkey.symm⟩
  exact Option.some.inj (hindex.symm.trans hother)

/-- No frame, no key. -/
theorem empty_keyed : Keyed empty := by
  intro key index
  simp [empty]

/-- Inserting a frame keeps the keys indexed if no pending frame has its key. -/
theorem insertLocked_keyed {frame : QueuedTelemetryFrame} (hkeyed : backlog.Keyed) (h : backlog.Arranged)
    (hfresh : ∀ index found, (index, found) ∈ backlog.frames → found.key ≠ frame.key) :
    (backlog.insertLocked frame).Keyed := by
  obtain ⟨hframes, hkeys, -⟩ := insertLocked_spec backlog frame
  intro key index
  rw [hframes, hkeys]
  simp only [SortedMap.mem_insert, Prod.mk.injEq]
  by_cases hsame : key = frame.key
  · subst hsame
    rw [AList.lookup_insert]
    constructor
    · rintro hindex
      obtain rfl := Option.some.inj hindex
      exact ⟨_, Or.inl ⟨rfl, rfl⟩, rfl⟩
    · rintro ⟨found, ⟨rfl, -⟩ | ⟨-, hmem⟩, hkey⟩
      · rfl
      · exact absurd hkey (hfresh index found hmem)
  · rw [AList.lookup_insert_ne hsame, hkeyed]
    refine exists_congr fun found => ?_
    constructor
    · rintro ⟨hmem, hkey⟩
      have hless := h.index_lt index ⟨found, hmem⟩
      exact ⟨Or.inr ⟨by omega, hmem⟩, hkey⟩
    · rintro ⟨⟨-, rfl⟩ | ⟨-, hmem⟩, hkey⟩
      · exact absurd hkey.symm hsame
      · exact ⟨hmem, hkey⟩

/-- Removing a position keeps the keys indexed. -/
theorem removeLocked_keyed (hkeyed : backlog.Keyed) (index : ℕ) : (backlog.removeLocked index).Keyed := by
  by_cases hin : index ∈ backlog.pending
  · obtain ⟨frame, hmem⟩ := hin
    obtain ⟨hframes, hkeys, -⟩ := removeLocked_spec hmem
    have hindex : backlog.byKey.lookup frame.key = some index := (hkeyed frame.key index).mpr ⟨frame, hmem, rfl⟩
    intro key other
    rw [hframes, hkeys, if_pos hindex]
    simp only [SortedMap.mem_erase]
    by_cases hsame : key = frame.key
    · subst hsame
      rw [AList.lookup_erase]
      refine ⟨fun h => absurd h (by simp), ?_⟩
      rintro ⟨found, ⟨hne, hfound⟩, hkey⟩
      exact absurd (hkeyed.eq_of_key_eq hfound hmem hkey) hne
    · rw [AList.lookup_erase_ne hsame, hkeyed]
      refine exists_congr fun found => ?_
      constructor
      · rintro ⟨hfound, hkey⟩
        refine ⟨⟨?_, hfound⟩, hkey⟩
        rintro rfl
        rw [SortedMap.value_unique hmem hfound] at hsame
        exact hsame hkey.symm
      · rintro ⟨⟨-, hfound⟩, hkey⟩
        exact ⟨hfound, hkey⟩
  · rw [removeLocked_of_notMem hin]
    exact hkeyed

/-- What the index finds under a key is a pending frame with that key. -/
def KeySound (backlog : Backlog) : Prop :=
  ∀ key index, backlog.byKey.lookup key = some index →
    ∃ frame, (index, frame) ∈ backlog.frames ∧ frame.key = key

/-- Inserting keeps the index sound. -/
theorem insertLocked_keySound (hsound : backlog.KeySound) (h : backlog.Arranged)
    (frame : QueuedTelemetryFrame) : (backlog.insertLocked frame).KeySound := by
  obtain ⟨hframes, hkeys, -⟩ := insertLocked_spec backlog frame
  intro key index hlookup
  rw [hkeys] at hlookup
  simp only [hframes, SortedMap.mem_insert, Prod.mk.injEq]
  by_cases hsame : key = frame.key
  · rw [hsame, AList.lookup_insert, Option.some.injEq] at hlookup
    exact ⟨_, Or.inl ⟨hlookup.symm, rfl⟩, hsame.symm⟩
  · rw [AList.lookup_insert_ne hsame] at hlookup
    obtain ⟨found, hmem, hkey⟩ := hsound key index hlookup
    have hless := h.index_lt index ⟨found, hmem⟩
    exact ⟨found, Or.inr ⟨by omega, hmem⟩, hkey⟩

/-- Removing a position keeps the index sound. -/
theorem removeLocked_keySound (hsound : backlog.KeySound) (index : ℕ) :
    (backlog.removeLocked index).KeySound := by
  by_cases hin : index ∈ backlog.pending
  · obtain ⟨frame, hmem⟩ := hin
    obtain ⟨hframes, hkeys, -⟩ := removeLocked_spec hmem
    -- What is still found was found before, under the key of another frame.
    have hothers : ∀ key other, (backlog.removeLocked index).byKey.lookup key = some other →
        backlog.byKey.lookup key = some other ∧ other ≠ index := by
      intro key other hlookup
      rw [hkeys] at hlookup
      by_cases hindexed : backlog.byKey.lookup frame.key = some index
      · rw [if_pos hindexed] at hlookup
        by_cases hsame : key = frame.key
        · rw [hsame, AList.lookup_erase] at hlookup
          exact absurd hlookup (by simp)
        · rw [AList.lookup_erase_ne hsame] at hlookup
          refine ⟨hlookup, ?_⟩
          rintro rfl
          obtain ⟨found, hfound, hkey⟩ := hsound key other hlookup
          rw [SortedMap.value_unique hfound hmem] at hkey
          exact hsame hkey.symm
      · rw [if_neg hindexed] at hlookup
        refine ⟨hlookup, ?_⟩
        rintro rfl
        obtain ⟨found, hfound, hkey⟩ := hsound key other hlookup
        rw [SortedMap.value_unique hfound hmem] at hkey
        exact hindexed (by rw [hkey, hlookup])
    intro key other hlookup
    obtain ⟨hbefore, hne⟩ := hothers key other hlookup
    obtain ⟨found, hfound, hkey⟩ := hsound key other hbefore
    rw [hframes]
    exact ⟨found, SortedMap.mem_erase.mpr ⟨hne, hfound⟩, hkey⟩
  · rw [removeLocked_of_notMem hin]
    exact hsound

/-- An exact acknowledgement removes a frame with the session, the number and the text it names. -/
theorem KeySound.exactPosition {frame : QueuedTelemetryFrame} {index : ℕ} (h : backlog.KeySound)
    (hposition : backlog.exactPosition frame = some index) :
    ∃ pending, backlog.frames.find? index = some pending ∧ pending.key = frame.key ∧
      pending.frame = frame.frame := by
  unfold Backlog.exactPosition at hposition
  split at hposition
  · exact absurd hposition (by simp)
  case h_2 found hlookup =>
    obtain ⟨pending, hmem, hkey⟩ := h frame.key found hlookup
    have hfind := SortedMap.find?_eq_some.mpr hmem
    rw [hfind] at hposition
    by_cases htext : pending.frame = frame.frame
    · simp only [htext, ne_eq, not_true_eq_false, if_false, Option.some.injEq] at hposition
      exact ⟨pending, hposition ▸ hfind, hkey, htext⟩
    · simp only [htext, ne_eq, not_false_eq_true, if_true] at hposition
      exact absurd hposition (by simp)

/-- A backlog that comes from another by removals alone. -/
inductive Removed (before : Backlog) : Backlog → Prop where
  | refl : Removed before before
  | remove {after : Backlog} (index : ℕ) (h : Removed before after) :
      Removed before (after.removeLocked index)

/-- Removals keep what one removal keeps. -/
theorem Removed.keep {keeps : Backlog → Prop} {before after : Backlog} (h : Removed before after)
    (hremove : ∀ current index, keeps current → keeps (current.removeLocked index)) (hbefore : keeps before) :
    keeps after := by
  induction h with
  | refl => exact hbefore
  | remove index _ ih => exact hremove _ index ih

/-- Removals after removals are removals. -/
theorem Removed.trans {first second third : Backlog} (h : Removed first second)
    (hnext : Removed second third) : Removed first third := by
  induction hnext with
  | refl => exact h
  | remove index _ ih => exact .remove index ih

/-- Pruning from the front is removing. -/
theorem pruneWhile_removed (condition : Backlog → QueuedTelemetryFrame → Bool) (fuel : ℕ)
    (backlog : Backlog) : Removed backlog (backlog.pruneWhile condition fuel) := by
  induction fuel generalizing backlog with
  | zero => exact .refl
  | succ fuel ih =>
    rw [pruneWhile]
    split
    · exact .refl
    · split
      · exact (Removed.refl.remove _).trans (ih _)
      · exact .refl

/-- Pruning is removing. -/
theorem pruneLocked_removed (backlog : Backlog) (retentionS : ℤ) (maxBytes : ℕ) (now : ℤ) :
    Removed backlog (backlog.pruneLocked retentionS maxBytes now) := by
  unfold pruneLocked
  dsimp only
  split
  · exact pruneWhile_removed _ _ _
  · exact (pruneWhile_removed _ _ _).trans (pruneWhile_removed _ _ _)

/-- Removing some positions in order is removing. -/
theorem foldl_removed (positions : List ℕ) (backlog : Backlog) :
    Removed backlog (positions.foldl removeLocked backlog) := by
  induction positions generalizing backlog with
  | nil => exact .refl
  | cons index rest ih => exact (Removed.refl.remove index).trans (ih _)

/-- Removals keep the tables in agreement. -/
theorem Removed.arranged {before after : Backlog} (h : Removed before after) (hbefore : before.Arranged) :
    after.Arranged :=
  h.keep (fun _ index hcurrent => removeLocked_arranged hcurrent index) hbefore

/-- Removals keep the keys indexed. -/
theorem Removed.keyed {before after : Backlog} (h : Removed before after) (hbefore : before.Keyed) :
    after.Keyed :=
  h.keep (fun _ index hcurrent => removeLocked_keyed hcurrent index) hbefore

/-- The middle frame of the longest, on a tie the oldest, run is the next one to replay. -/
def ReplaysLongest (backlog : Backlog) : Prop :=
  (backlog.pending = ∅ ∧ backlog.nextReplay = .ok none) ∨
    ∃ start stop frame, IsRun backlog.pending start stop ∧
      (∀ otherStart otherStop, IsRun backlog.pending otherStart otherStop →
        otherStop - otherStart < stop - start ∨
          otherStop - otherStart = stop - start ∧ start ≤ otherStart) ∧
      (start + (stop - start) / 2, frame) ∈ backlog.frames ∧ backlog.nextReplay = .ok (some frame)

/-- The length keys are ordered by length, longer runs first, and then by age. -/
theorem lengthKey_le {start stop otherStart otherStop : ℕ} (hle : start ≤ stop)
    (hother : otherStart ≤ otherStop) (h : lengthKey start stop ≤ lengthKey otherStart otherStop) :
    otherStop - otherStart < stop - start ∨ otherStop - otherStart = stop - start ∧ start ≤ otherStart := by
  rw [lengthKey, lengthKey, Prod.Lex.toLex_le_toLex] at h
  rcases h with hlonger | ⟨hsame, hstart⟩
  · dsimp only at hlonger
    exact Or.inl (by omega)
  · dsimp only at hsame hstart
    exact Or.inr ⟨by omega, hstart⟩

/-- In agreement the next replay is the middle of the longest run. -/
theorem Arranged.replaysLongest (h : backlog.Arranged) : backlog.ReplaysLongest := by
  unfold ReplaysLongest nextReplay
  cases hfirst : backlog.runsByLength.first? with
  | none =>
    refine Or.inl ⟨?_, rfl⟩
    by_contra hne
    obtain ⟨index, hindex⟩ := Set.nonempty_iff_ne_empty.mpr hne
    obtain ⟨start, stop, hrun, -, -⟩ := exists_run h.index_lt hindex
    have hlisted := (h.same_runs _).mpr ⟨start, stop, (h.runs_iff start stop).mpr hrun, rfl⟩
    exact SortedMap.first?_eq_none hfirst _ hlisted
  | some entry =>
    obtain ⟨key, ⟨⟩⟩ := entry
    obtain ⟨hmem, hsmallest⟩ := SortedMap.first?_eq_some hfirst
    obtain ⟨start, stop, hlisted, rfl⟩ := (h.same_runs key).mp hmem
    have hrun := (h.runs_iff start stop).mp hlisted
    have hle := hrun.le
    obtain ⟨frame, hframe⟩ := hrun.filled (start + (stop - start) / 2) (by omega) (by omega)
    refine Or.inr ⟨start, stop, frame, hrun, ?_, hframe, ?_⟩
    · intro otherStart otherStop hother
      have hkey := (h.same_runs _).mpr ⟨otherStart, otherStop, (h.runs_iff _ _).mpr hother, rfl⟩
      exact lengthKey_le hle hother.le (hsmallest _ hkey)
    · have hstart : (ofLex (lengthKey start stop)).2 = start := rfl
      simp [hstart, fetch_eq_ok hlisted, fetch_eq_ok hframe, bind, Except.bind]

/-- In agreement the pending pull events are fetched, and each is a pending frame. -/
theorem Arranged.pendingEvents_ok (h : backlog.Arranged) (maxFrames : ℕ) :
    ∃ frames, backlog.pendingEvents maxFrames = .ok frames ∧
      ∀ frame ∈ frames, frame.isEventFrame = true ∧ (frame.index, frame) ∈ backlog.frames := by
  have hfetch : ∀ positions : List ℕ, (∀ index ∈ positions, (index, ()) ∈ backlog.events) →
      ∃ frames, positions.mapM (fetch backlog.frames) = .ok frames ∧
        ∀ frame ∈ frames, frame.isEventFrame = true ∧ (frame.index, frame) ∈ backlog.frames := by
    intro positions hpositions
    induction positions with
    | nil => exact ⟨[], rfl, fun frame hframe => absurd hframe List.not_mem_nil⟩
    | cons index rest ih =>
      obtain ⟨frames, hrest, hframes⟩ := ih fun other hother => hpositions other (List.mem_cons_of_mem _ hother)
      obtain ⟨frame, hmem, hevent⟩ := (h.events_iff index).mp (hpositions index List.mem_cons_self)
      refine ⟨frame :: frames, ?_, ?_⟩
      · rw [List.mapM_cons, fetch_eq_ok hmem, hrest]
        rfl
      · intro found hfound
        rcases List.mem_cons.mp hfound with rfl | hin
        · rw [h.index_eq index found hmem]
          exact ⟨hevent, hmem⟩
        · exact hframes found hin
  refine hfetch _ fun index hindex => ?_
  obtain ⟨⟨found, ⟨⟩⟩, hmem, rfl⟩ := List.mem_map.mp hindex
  exact List.mem_of_mem_take hmem

end Backlog

end Coatheal.Queue
