import Coatheal.Fallback.PlanChange

/-!
# Whether the plan file follows the plan

Both threads take the text under the lock and write it afterwards, so they can
write in the other order; and the dirty mark is cleared before the write is
known to have succeeded, so a failed write is not made good. The file follows
the plan as long as every text that is left in it is the present one, or will
be replaced.
-/

namespace Coatheal.Fallback

open Coatheal.Library

variable {n : ℕ}

/-- The other one of the two threads. -/
def PlanThread.other : PlanThread → PlanThread
  | .control => .command
  | .command => .control

/-- Every thread is the one in question or the other one. -/
theorem PlanThread.eq_or_eq_other (thread another : PlanThread) : another = thread ∨ another = thread.other := by
  cases thread <;> cases another <;> simp [PlanThread.other]

/-- The control loop has ticked and is still to call `PersistFallbackPlanIfDirty`, or to take the mark. -/
def ControlPhase.beforeTake : ControlPhase n → Bool
  | .idle => false
  | .starting _ => true
  | .started _ _ _ _ => true
  | .saving save => save = .due

namespace FallbackPlanner

/-- Loading a motor's plan marks the plan. -/
theorem setMotorPlan_dirty {p q : FallbackPlanner n} {motorId : ℤ} {targetUsteps : Int64} {holdS speedHz : ℚ}
    (h : p.setMotorPlan motorId targetUsteps holdS speedHz = .ok q) : q.dirty = true := by
  cases hindex : (index motorId : Option (Fin n)) with
  | none =>
    unfold setMotorPlan at h
    rw [hindex] at h
    cases h
  | some i =>
    obtain ⟨-, base, -, rfl⟩ := setMotorPlan_ok hindex h
    rfl

/-- Loading a file does not mark the plan. -/
theorem loadFrom_dirty (p : FallbackPlanner n) (file : Option (List Char)) : (p.loadFrom file).dirty = p.dirty := by
  cases file with
  | none => rfl
  | some text =>
    unfold loadFrom deserialize
    dsimp only
    split
    · rfl
    · split
      · rfl
      · split <;> rfl

end FallbackPlanner

/-- The onboard is restarted. -/
def StoreEvent.isRestart : StoreEvent → Bool
  | .restart _ _ => true
  | _ => false

namespace PlanStore

/-- A thread at a new point of its save is there; the other one stays where it is. -/
theorem save?_setSave {s : PlanStore n} {thread : PlanThread} {before : Save} (h : s.save? thread = some before)
    (after : Save) :
    (s.setSave after thread).save? thread = some after ∧
      (s.setSave after thread).save? thread.other = s.save? thread.other := by
  cases thread with
  | control => exact ⟨rfl, rfl⟩
  | command =>
    unfold save? at h
    dsimp only at h
    split at h
    · rename_i request save hcommand
      simp [setSave, save?, hcommand, PlanThread.other]
    · cases h

/-- A thread that has finished is not saving; the other one stays where it is. -/
theorem save?_finish (s : PlanStore n) (thread : PlanThread) :
    (s.finish thread).save? thread = none ∧ (s.finish thread).save? thread.other = s.save? thread.other := by
  cases thread <;> exact ⟨rfl, rfl⟩

/-- Someone will take the dirty mark. -/
def WillTake (s : PlanStore n) : Prop := s.control.beforeTake = true ∨ s.save? .command = some .due

/-- A thread that has the text already is not the one that will take the mark. -/
theorem WillTake.of_has {s t : PlanStore n} (h : s.WillTake) {thread : PlanThread} {before : Save}
    (hbefore : s.save? thread = some before) (hne : before ≠ .due)
    (hcontrol : thread = .command → t.control = s.control)
    (hother : t.save? thread.other = s.save? thread.other) : t.WillTake := by
  cases thread with
  | control =>
    have hnot : s.control.beforeTake = false := by
      unfold save? at hbefore
      dsimp only at hbefore
      split at hbefore
      · rename_i save heq
        rw [heq]
        simpa [ControlPhase.beforeTake] using (Option.some.inj hbefore) ▸ hne
      · cases hbefore
    rcases h with h | h
    · rw [hnot] at h
      cases h
    · exact Or.inr (hother.trans h)
  | command =>
    rcases h with h | h
    · exact Or.inl ((hcontrol rfl) ▸ h)
    · exact absurd (Option.some.inj (hbefore.symm.trans h)) hne

/-- Both threads are done with what they began. -/
def Quiescent (s : PlanStore n) : Prop :=
  (match s.control with
    | .idle => True
    | _ => False) ∧ s.command = .idle

/-- The file holds the serialization of the present plan. -/
def InFile (s : PlanStore n) : Prop := s.file = some s.planner.serialize

/-- What a thread leaves in the file will be replaced by the present text: the plan is marked, or the other
thread is to open the file for the present text, or to write that over no longer one. -/
def Replaced (s : PlanStore n) (thread : PlanThread) (left : Option (List Char)) : Prop :=
  s.planner.dirty = true ∨ s.save? thread.other = some (.opening s.planner.serialize) ∨
    s.save? thread.other = some (.writing s.planner.serialize) ∧
      (left.getD []).length ≤ s.planner.serialize.length

/-- A write fails: the file cannot be opened, or does not take the whole text. -/
def failsWrite (s : PlanStore n) : StoreEvent → Bool
  | .openFile thread opens =>
    match s.save? thread with
    | some (.opening _) => !opens
    | _ => false
  | .writeFile thread count =>
    match s.save? thread with
    | some (.writing text) => kept text count ≠ text
    | _ => false
  | _ => false

end PlanStore

/-- The store, the file it was started with, whether the plan has changed since, and whether a write has
failed since the last change. -/
structure FileWatch (n : ℕ) where
  store : PlanStore n
  found : Option (List Char)
  changed : Bool
  failed : Bool

namespace FileWatch

/-- The onboard starts with what the file holds. -/
def boot (cfg : FallbackPlannerConfig) (addressable : n ≤ 2 ^ 63) (file : Option (List Char)) : FileWatch n :=
  ⟨PlanStore.boot cfg addressable file, file, false, false⟩

/-- One step of the store, watched. A change is one of the text. -/
def step (w : FileWatch n) (event : StoreEvent) : FileWatch n where
  store := w.store.step event
  found := if event.isRestart then (w.store.step event).file else w.found
  changed := !event.isRestart && (w.changed ||
    (w.store.step event).planner.serialize ≠ w.store.planner.serialize)
  failed := !event.isRestart && (w.failed &&
    (w.store.step event).planner.serialize = w.store.planner.serialize || w.store.failsWrite event)

/-- The file follows the plan: whenever no thread is at work the file holds the present plan's serialization,
or the plan is still the one that was found in it, or a write has failed and the plan is marked to be written
again. -/
def Follows (w : FileWatch n) : Prop :=
  w.store.Quiescent →
    w.store.InFile ∨ (w.changed = false ∧ w.store.file = w.found) ∨ (w.failed = true ∧ w.store.planner.dirty = true)

/-- What a step may not do when the file is to follow the plan: it leaves an older text, a part of a text or
nothing in the file only if that will be replaced. -/
def InTurn (w : FileWatch n) : StoreEvent → Prop
  | .openFile thread true => ∀ text, w.store.save? thread = some (.opening text) →
    text = w.store.planner.serialize ∨ w.store.Replaced thread (some [])
  | .openFile thread false => ∀ text, w.store.save? thread = some (.opening text) →
    w.store.InFile ∨ w.store.Replaced thread w.store.file
  | .writeFile thread count => ∀ text, w.store.save? thread = some (.writing text) →
    kept text count = w.store.planner.serialize ∨
      w.store.Replaced thread (some (overlay (kept text count) w.store.file))
  | _ => True

/-- The file will hold the present plan: the plan is marked, or a thread is to write the present text, or the
file holds it, or nothing has been changed or written since the file was found. -/
structure Sure (w : FileWatch n) : Prop where
  taken : w.store.planner.dirty = true → w.store.WillTake
  ends : w.store.planner.dirty = true ∨
    (∃ thread, w.store.save? thread = some (.opening w.store.planner.serialize)) ∨
    (∃ thread, w.store.save? thread = some (.writing w.store.planner.serialize)) ∧
      (w.store.file.getD []).length ≤ w.store.planner.serialize.length ∨
    w.store.InFile ∨
    w.changed = false ∧ w.store.file = w.found ∧
      ∀ thread text, w.store.save? thread ≠ some (.opening text) ∧ w.store.save? thread ≠ some (.writing text)

/-- When no thread is at work, the file follows the plan. -/
theorem Sure.follows {w : FileWatch n} (h : w.Sure) : w.Follows := by
  intro ⟨hcontrol, hcommand⟩
  have hnone : ∀ thread, w.store.save? thread = none := by
    intro thread
    cases thread with
    | control =>
      unfold PlanStore.save?
      dsimp only
      split
      · rename_i save heq
        rw [heq] at hcontrol
        exact hcontrol.elim
      · rfl
    | command => simp [PlanStore.save?, hcommand]
  have hclean : w.store.planner.dirty ≠ true := by
    intro hdirty
    rcases h.taken hdirty with hbefore | hdue
    · revert hcontrol hbefore
      cases w.store.control <;> simp [ControlPhase.beforeTake]
    · rw [hnone] at hdue
      cases hdue
  rcases h.ends with hdirty | ⟨thread, hsave⟩ | ⟨⟨thread, hsave⟩, -⟩ | hfile | ⟨hchanged, hfile, -⟩
  · exact absurd hdirty hclean
  · rw [hnone] at hsave
    cases hsave
  · rw [hnone] at hsave
    cases hsave
  · exact Or.inl hfile
  · exact Or.inr (Or.inl ⟨hchanged, hfile⟩)

/-- After a start nothing has been changed or written since the file was found. -/
theorem sure_boot (cfg : FallbackPlannerConfig) (addressable : n ≤ 2 ^ 63) (file : Option (List Char)) :
    (boot cfg addressable file).Sure := by
  have hclean : ((FallbackPlanner.new cfg addressable : FallbackPlanner n).loadFrom file).dirty = false :=
    FallbackPlanner.loadFrom_dirty _ file
  refine ⟨fun hdirty => ?_, Or.inr (Or.inr (Or.inr (Or.inr ⟨rfl, rfl, fun thread text => ?_⟩)))⟩
  · exact absurd (hclean.symm.trans hdirty) (by simp)
  · cases thread <;> simp [boot, PlanStore.boot, PlanStore.save?]

/-- A step that leaves the file and its writers alone keeps the file sure, when it marks what it changes. -/
theorem Sure.of_plan {w : FileWatch n} {event : StoreEvent} (h : w.Sure) (hrestart : event.isRestart = false)
    (hmarked : (w.store.step event).planner.dirty = false → w.store.planner.dirty = false ∧
      (w.store.step event).planner.serialize = w.store.planner.serialize)
    (htaken : (w.store.step event).planner.dirty = true → (w.store.step event).WillTake)
    (hfile : (w.store.step event).file = w.store.file)
    (hsave : ∀ thread save, save ≠ .due →
      ((w.store.step event).save? thread = some save ↔ w.store.save? thread = some save)) :
    (w.step event).Sure := by
  refine ⟨htaken, ?_⟩
  cases hdirty : (w.store.step event).planner.dirty with
  | true => exact Or.inl hdirty
  | false =>
    obtain ⟨hclean, hsame⟩ := hmarked hdirty
    have hchanged : (w.step event).changed = w.changed := by
      simp [FileWatch.step, hrestart, hsame]
    have hfound : (w.step event).found = w.found := by
      simp [FileWatch.step, hrestart]
    refine Or.inr ?_
    show (∃ thread, (w.store.step event).save? thread = some (.opening (w.store.step event).planner.serialize)) ∨
      (∃ thread, (w.store.step event).save? thread = some (.writing (w.store.step event).planner.serialize)) ∧
        ((w.store.step event).file.getD []).length ≤ (w.store.step event).planner.serialize.length ∨
      (w.store.step event).file = some (w.store.step event).planner.serialize ∨
      (w.step event).changed = false ∧ (w.store.step event).file = (w.step event).found ∧
        ∀ thread text, (w.store.step event).save? thread ≠ some (.opening text) ∧
          (w.store.step event).save? thread ≠ some (.writing text)
    rw [hsame, hfile, hchanged, hfound]
    rcases h.ends with hmark | ⟨thread, hopening⟩ | ⟨⟨thread, hwriting⟩, hlength⟩ | hin | ⟨hsince, hfile', hidle⟩
    · rw [hclean] at hmark
      cases hmark
    · exact Or.inl ⟨thread, (hsave thread _ (by simp)).mpr hopening⟩
    · exact Or.inr (Or.inl ⟨⟨thread, (hsave thread _ (by simp)).mpr hwriting⟩, hlength⟩)
    · exact Or.inr (Or.inr (Or.inl hin))
    · refine Or.inr (Or.inr (Or.inr ⟨hsince, hfile', fun thread text => ⟨?_, ?_⟩⟩))
      · rw [ne_eq, hsave thread _ (by simp)]
        exact (hidle thread text).1
      · rw [ne_eq, hsave thread _ (by simp)]
        exact (hidle thread text).2

/-- A step that does nothing keeps the file sure. -/
theorem Sure.of_same {w : FileWatch n} {event : StoreEvent} (h : w.Sure) (hrestart : event.isRestart = false)
    (hsame : w.store.step event = w.store) : (w.step event).Sure := by
  refine h.of_plan hrestart (fun hdirty => ?_) (fun hdirty => ?_) (by rw [hsame]) fun thread save _ => by rw [hsame]
  · rw [hsame] at hdirty ⊢
    exact ⟨hdirty, rfl⟩
  · rw [hsame] at hdirty ⊢
    exact h.taken hdirty

/-- What an opened or written file needs to be sure: it is the present text or will be replaced. -/
theorem Sure.of_replaced {w : FileWatch n} {event : StoreEvent} (h : w.Sure) {thread : PlanThread} (hplanner : (w.store.step event).planner = w.store.planner)
    (hwill : w.store.WillTake → (w.store.step event).WillTake)
    (hother : (w.store.step event).save? thread.other = w.store.save? thread.other)
    (hreplaced : w.store.Replaced thread (w.store.step event).file) : (w.step event).Sure := by
  have hdirty : (w.store.step event).planner.dirty = w.store.planner.dirty := by rw [hplanner]
  refine ⟨fun hd => hwill (h.taken (hdirty ▸ hd)), ?_⟩
  rcases hreplaced with hd | hopening | ⟨hwriting, hlength⟩
  · exact Or.inl (hdirty.trans hd)
  · refine Or.inr (Or.inl ⟨thread.other, ?_⟩)
    show (w.store.step event).save? thread.other = some (.opening (w.store.step event).planner.serialize)
    rw [hother, hplanner]
    exact hopening
  · refine Or.inr (Or.inr (Or.inl ⟨⟨thread.other, ?_⟩, ?_⟩))
    · show (w.store.step event).save? thread.other = some (.writing (w.store.step event).planner.serialize)
      rw [hother, hplanner]
      exact hwriting
    · show ((w.store.step event).file.getD []).length ≤ (w.store.step event).planner.serialize.length
      rw [hplanner]
      exact hlength

/-- A step by which the control loop comes to another point keeps the file sure. -/
theorem Sure.of_control {w : FileWatch n} {event : StoreEvent} (h : w.Sure) (hrestart : event.isRestart = false)
    {planner : FallbackPlanner n} {control : ControlPhase n}
    (hstep : w.store.step event = { w.store with planner := planner, control := control })
    (hnoted : FallbackPlanner.Noted w.store.planner planner) (htake : control.beforeTake = true)
    (hbefore : ∀ save, w.store.control ≠ .saving save) : (w.step event).Sure := by
  refine h.of_plan hrestart (fun hdirty => ?_) (fun _ => ?_) (by rw [hstep]) fun thread save hsave => ?_
  · rw [hstep] at hdirty ⊢
    exact hnoted.serialize hdirty
  · rw [hstep]
    exact Or.inl htake
  · rw [hstep]
    cases thread with
    | command => rfl
    | control =>
      have hnone : w.store.save? .control = none := by
        unfold PlanStore.save?
        dsimp only
        split
        · rename_i save' heq
          exact absurd heq (hbefore save')
        · rfl
      rw [hnone]
      unfold PlanStore.save?
      dsimp only
      cases control with
      | idle => cases htake
      | starting action => simp
      | started action accepted retryLater error => simp
      | saving save' =>
        have hdue : save' = .due := of_decide_eq_true htake
        simp [hdue, Ne.symm hsave]

/-- A change by the command thread keeps the file sure. -/
theorem Sure.of_edit {w : FileWatch n} {event : StoreEvent} (h : w.Sure) (hrestart : event.isRestart = false)
    {planner : FallbackPlanner n} {request : PlanRequest} (hidle : w.store.command = .idle)
    (hstep : w.store.step event = { w.store with planner := planner, command := .saving request .due })
    (hdirty : planner.dirty = true) : (w.step event).Sure := by
  refine h.of_plan hrestart (fun hclean => ?_) (fun _ => ?_) (by rw [hstep]) fun thread save hsave => ?_
  · rw [hstep, hdirty] at hclean
    cases hclean
  · rw [hstep]
    exact Or.inr rfl
  · rw [hstep]
    cases thread with
    | control => rfl
    | command =>
      have hnone : w.store.save? .command = none := by simp [PlanStore.save?, hidle]
      rw [hnone]
      simp [PlanStore.save?, Ne.symm hsave]

/-- Taking the mark keeps the file sure. -/
theorem Sure.take {w : FileWatch n} (h : w.Sure) (thread : PlanThread) : (w.step (.take thread)).Sure := by
  by_cases hdue : w.store.save? thread = some .due
  · cases hdirty : w.store.planner.dirty with
    | true =>
      have hstep : w.store.step (.take thread) =
          { w.store with planner := w.store.planner.takeDirty.2 }.setSave (.opening w.store.planner.serialize)
            thread := by
        simp [PlanStore.step, hdue, PlanStore.take, hdirty]
      have hplanner : (w.store.step (.take thread)).planner = w.store.planner.takeDirty.2 := by
        rw [hstep, (PlanStore.setSave_same _ _ thread).1]
      have hdue' : ({ w.store with planner := w.store.planner.takeDirty.2 } : PlanStore n).save? thread =
          some .due := by
        cases thread <;> exact hdue
      refine ⟨fun hd => ?_, Or.inr (Or.inl ⟨thread, ?_⟩)⟩
      · rw [show (w.step (.take thread)).store = w.store.step (.take thread) from rfl, hplanner] at hd
        cases hd
      · show (w.store.step (.take thread)).save? thread = some (.opening (w.store.step (.take thread)).planner.serialize)
        rw [hplanner, hstep, (PlanStore.save?_setSave hdue' _).1]
        rfl
    | false =>
      have hstep : w.store.step (.take thread) = w.store.finish thread := by
        simp [PlanStore.step, hdue, PlanStore.take, hdirty]
      refine h.of_plan rfl (fun _ => ?_) (fun hd => ?_) ?_ fun another save hsave => ?_
      · rw [hstep, (PlanStore.finish_same w.store thread).1]
        exact ⟨hdirty, rfl⟩
      · rw [hstep, (PlanStore.finish_same w.store thread).1, hdirty] at hd
        cases hd
      · rw [hstep, (PlanStore.finish_same w.store thread).2.1]
      · rw [hstep]
        rcases thread.eq_or_eq_other another with rfl | rfl
        · rw [(PlanStore.save?_finish w.store another).1, hdue]
          simp [Ne.symm hsave]
        · rw [(PlanStore.save?_finish w.store thread).2]
  · refine h.of_same rfl ?_
    unfold PlanStore.step
    dsimp only
    split
    · rename_i heq
      exact absurd heq hdue
    · rfl

/-- Opening the file in turn keeps it sure. -/
theorem Sure.openFile {w : FileWatch n} (h : w.Sure) (thread : PlanThread) (opens : Bool)
    (hturn : w.InTurn (.openFile thread opens)) : (w.step (.openFile thread opens)).Sure := by
  by_cases hopening : ∃ text, w.store.save? thread = some (.opening text)
  · obtain ⟨text, hsave⟩ := hopening
    cases opens with
    | true =>
      have hsave' : ({ w.store with file := some [] } : PlanStore n).save? thread = some (.opening text) := by
        cases thread <;> exact hsave
      have hstep : w.store.step (.openFile thread true) =
          { w.store with file := some [] }.setSave (.writing text) thread := by
        simp [PlanStore.step, hsave, PlanStore.openFile]
      have hplanner : (w.store.step (.openFile thread true)).planner = w.store.planner := by
        rw [hstep, (PlanStore.setSave_same _ _ thread).1]
      have hfile : (w.store.step (.openFile thread true)).file = some [] := by
        rw [hstep, (PlanStore.setSave_same _ _ thread).2.1]
      have hother : (w.store.step (.openFile thread true)).save? thread.other = w.store.save? thread.other := by
        rw [hstep, (PlanStore.save?_setSave hsave' _).2]
        cases thread <;> rfl
      have hwill : w.store.WillTake → (w.store.step (.openFile thread true)).WillTake := by
        intro hwill
        refine hwill.of_has hsave (by simp) (fun heq => ?_) hother
        rw [hstep, heq]
        unfold PlanStore.setSave
        dsimp only
        split <;> rfl
      rcases hturn text hsave with hpresent | hreplaced
      · refine ⟨fun hd => hwill (h.taken ?_), Or.inr (Or.inr (Or.inl ⟨⟨thread, ?_⟩, ?_⟩))⟩
        · rw [← hplanner]
          exact hd
        · show (w.store.step (.openFile thread true)).save? thread =
            some (.writing (w.store.step (.openFile thread true)).planner.serialize)
          rw [hplanner, ← hpresent, hstep, (PlanStore.save?_setSave hsave' _).1]
        · show ((w.store.step (.openFile thread true)).file.getD []).length ≤ _
          rw [hfile]
          exact Nat.zero_le _
      · exact h.of_replaced hplanner hwill hother (hfile ▸ hreplaced)
    | false =>
      have hstep : w.store.step (.openFile thread false) = w.store.finish thread := by
        simp [PlanStore.step, hsave, PlanStore.openFile]
      have hplanner : (w.store.step (.openFile thread false)).planner = w.store.planner := by
        rw [hstep, (PlanStore.finish_same w.store thread).1]
      have hfile : (w.store.step (.openFile thread false)).file = w.store.file := by
        rw [hstep, (PlanStore.finish_same w.store thread).2.1]
      have hother : (w.store.step (.openFile thread false)).save? thread.other = w.store.save? thread.other := by
        rw [hstep, (PlanStore.save?_finish w.store thread).2]
      have hwill : w.store.WillTake → (w.store.step (.openFile thread false)).WillTake := by
        intro hwill
        refine hwill.of_has hsave (by simp) (fun heq => ?_) hother
        rw [hstep, heq]
        rfl
      rcases hturn text hsave with hpresent | hreplaced
      · refine ⟨fun hd => hwill (h.taken ?_), Or.inr (Or.inr (Or.inr (Or.inl ?_)))⟩
        · rw [← hplanner]
          exact hd
        · show (w.store.step (.openFile thread false)).file = some (w.store.step (.openFile thread false)).planner.serialize
          rw [hfile, hplanner]
          exact hpresent
      · exact h.of_replaced hplanner hwill hother (hfile ▸ hreplaced)
  · refine h.of_same rfl ?_
    unfold PlanStore.step
    dsimp only
    split
    · rename_i text heq
      exact absurd ⟨text, heq⟩ hopening
    · rfl

/-- The present text over no longer a text is the present text. -/
theorem overlay_of_length_le {text : List Char} {file : Option (List Char)}
    (h : (file.getD []).length ≤ text.length) : overlay text file = text := by
  rw [overlay, List.drop_eq_nil_of_le h, List.append_nil]

/-- Writing the file in turn keeps it sure. -/
theorem Sure.writeFile {w : FileWatch n} (h : w.Sure) (thread : PlanThread) (count : Option ℕ)
    (hturn : w.InTurn (.writeFile thread count)) : (w.step (.writeFile thread count)).Sure := by
  by_cases hwriting : ∃ text, w.store.save? thread = some (.writing text)
  · obtain ⟨text, hsave⟩ := hwriting
    have hstep : w.store.step (.writeFile thread count) =
        ({ w.store with file := some (overlay (kept text count) w.store.file) } : PlanStore n).finish thread := by
      simp [PlanStore.step, hsave, PlanStore.writeFile]
    have hplanner : (w.store.step (.writeFile thread count)).planner = w.store.planner := by
      rw [hstep, (PlanStore.finish_same _ thread).1]
    have hfile : (w.store.step (.writeFile thread count)).file = some (overlay (kept text count) w.store.file) := by
      rw [hstep, (PlanStore.finish_same _ thread).2.1]
    have hother : (w.store.step (.writeFile thread count)).save? thread.other = w.store.save? thread.other := by
      rw [hstep, (PlanStore.save?_finish _ thread).2]
      cases thread <;> rfl
    have hwill : w.store.WillTake → (w.store.step (.writeFile thread count)).WillTake := by
      intro hwill
      refine hwill.of_has hsave (by simp) (fun heq => ?_) hother
      rw [hstep, heq]
      rfl
    have hreplaced : w.store.Replaced thread (some (overlay (kept text count) w.store.file)) →
        (w.step (.writeFile thread count)).Sure :=
      fun hreplaced => h.of_replaced hplanner hwill hother (hfile ▸ hreplaced)
    rcases hturn text hsave with hpresent | hlater
    · have hshort : (w.store.file.getD []).length ≤ w.store.planner.serialize.length →
          (w.step (.writeFile thread count)).Sure := by
        intro hlength
        refine ⟨fun hd => hwill (h.taken (hplanner ▸ hd)), Or.inr (Or.inr (Or.inr (Or.inl ?_)))⟩
        show (w.store.step (.writeFile thread count)).file =
          some (w.store.step (.writeFile thread count)).planner.serialize
        rw [hfile, hplanner, hpresent, overlay_of_length_le hlength]
      rcases h.ends with hdirty | ⟨another, hopening⟩ | ⟨-, hlength⟩ | hin | ⟨-, -, hidle⟩
      · exact hreplaced (Or.inl hdirty)
      · rcases thread.eq_or_eq_other another with rfl | rfl
        · rw [hsave] at hopening
          cases hopening
        · exact hreplaced (Or.inr (Or.inl hopening))
      · exact hshort hlength
      · refine hshort ?_
        rw [hin]
        exact le_rfl
      · exact absurd hsave (hidle thread text).2
    · exact hreplaced hlater
  · refine h.of_same rfl ?_
    unfold PlanStore.step
    dsimp only
    split
    · rename_i text heq
      exact absurd ⟨text, heq⟩ hwriting
    · rfl

/-- Every step in turn keeps the file sure. -/
theorem Sure.step {w : FileWatch n} {event : StoreEvent} (h : w.Sure) (hturn : w.InTurn event) :
    (w.step event).Sure := by
  cases event with
  | tick input =>
    cases hcontrol : w.store.control with
    | idle =>
      have hstep : w.store.step (.tick input) = w.store.tick input := by simp [PlanStore.step, hcontrol]
      refine h.of_control rfl (hstep.trans rfl) (FallbackPlanner.tick_noted _ input) ?_ (by simp [hcontrol])
      cases (w.store.planner.tick input).2 <;> rfl
    | _ => exact h.of_same rfl (by simp [PlanStore.step, hcontrol])
  | move accepted retryLater error =>
    cases hcontrol : w.store.control with
    | starting action =>
      have hstep : w.store.step (.move accepted retryLater error) =
          { w.store with planner := w.store.planner, control := .started action accepted retryLater error } := by
        simp [PlanStore.step, hcontrol]
      exact h.of_control rfl hstep (FallbackPlanner.Noted.refl _) rfl (by simp [hcontrol])
    | _ => exact h.of_same rfl (by simp [PlanStore.step, hcontrol])
  | report =>
    cases hcontrol : w.store.control with
    | started action accepted retryLater error =>
      have hstep : w.store.step .report =
          { w.store with
            planner := w.store.planner.reportStartResult (action.motorId : ℤ) accepted retryLater error
            control := .saving .due } := by
        simp [PlanStore.step, hcontrol]
      exact h.of_control rfl hstep (FallbackPlanner.reportStartResult_noted _ _ _ _ _) rfl (by simp [hcontrol])
    | _ => exact h.of_same rfl (by simp [PlanStore.step, hcontrol])
  | plan motorId targetUsteps holdS speedHz =>
    cases hcommand : w.store.command with
    | saving request save => exact h.of_same rfl (by simp [PlanStore.step, hcommand])
    | idle =>
      cases hload : w.store.planner.setMotorPlan motorId targetUsteps holdS speedHz with
      | error text => exact h.of_same rfl (by simp [PlanStore.step, hcommand, hload, PlanStore.edit])
      | ok planner =>
        have hstep : w.store.step (.plan motorId targetUsteps holdS speedHz) =
            { w.store with planner := planner, command := .saving .plan .due } := by
          simp [PlanStore.step, hcommand, hload, PlanStore.edit]
        exact h.of_edit rfl hcommand hstep (FallbackPlanner.setMotorPlan_dirty hload)
  | arm =>
    cases hcommand : w.store.command with
    | saving request save => exact h.of_same rfl (by simp [PlanStore.step, hcommand])
    | idle =>
      cases harm : w.store.planner.arm with
      | error text => exact h.of_same rfl (by simp [PlanStore.step, hcommand, harm, PlanStore.edit])
      | ok planner =>
        have hstep : w.store.step .arm = { w.store with planner := planner, command := .saving .arm .due } := by
          simp [PlanStore.step, hcommand, harm, PlanStore.edit]
        refine h.of_edit rfl hcommand hstep ?_
        obtain ⟨-, -, rfl⟩ := FallbackPlanner.arm_ok harm
        rfl
  | disarm =>
    cases hcommand : w.store.command with
    | saving request save => exact h.of_same rfl (by simp [PlanStore.step, hcommand])
    | idle =>
      have hstep : w.store.step .disarm =
          { w.store with planner := w.store.planner.disarm, command := .saving .disarm .due } := by
        simp [PlanStore.step, hcommand, PlanStore.edit]
      exact h.of_edit rfl hcommand hstep rfl
  | take thread => exact h.take thread
  | openFile thread opens => exact h.openFile thread opens hturn
  | writeFile thread count => exact h.writeFile thread count hturn
  | restart keptByControl keptByCommand =>
    exact sure_boot w.store.planner.cfg w.store.planner.addressable
      (w.store.cutShort .command keptByCommand (w.store.cutShort .control keptByControl w.store.file))

/-- The file follows the plan in every run whose steps are all in turn. -/
theorem follows_of_inTurn (cfg : FallbackPlannerConfig) (addressable : n ≤ 2 ^ 63) (file : Option (List Char))
    {events : List StoreEvent} (h : Meets step InTurn (boot cfg addressable file) events) :
    Holds step Follows (boot cfg addressable file) events :=
  @holds_of_meets _ _ step InTurn Sure Follows (fun _ _ sure hturn => sure.step hturn) (fun _ sure => sure.follows)
    _ _ (sure_boot cfg addressable file) h

/-- A plan is loaded and armed, one after the other. -/
def inPeace : List StoreEvent := .plan 0 400 60 0 :: PlanStore.saved ++ .arm :: PlanStore.saved

/-- The file follows a plan that is loaded and armed. -/
theorem follows_of_inTurn_inPeace : Holds step Follows (boot {} (by decide) none : FileWatch 1) inPeace := by
  have hpresent : ∀ (w : FileWatch 1) (thread : PlanThread) (text : List Char),
      w.store.save? thread = some (.writing text) → text = w.store.planner.serialize →
        w.InTurn (.writeFile thread none) := by
    intro w thread text hsave htext text' hsave'
    obtain rfl := Save.writing.inj (Option.some.inj (hsave.symm.trans hsave'))
    exact Or.inl htext
  have hopens : ∀ (w : FileWatch 1) (thread : PlanThread) (text : List Char),
      w.store.save? thread = some (.opening text) → text = w.store.planner.serialize →
        w.InTurn (.openFile thread true) := by
    intro w thread text hsave htext text' hsave'
    obtain rfl := Save.opening.inj (Option.some.inj (hsave.symm.trans hsave'))
    exact Or.inl htext
  refine follows_of_inTurn {} (by decide) none ?_
  exact ⟨trivial, trivial, hopens _ _ _ (by rfl) (by decide +kernel), hpresent _ _ _ (by rfl) (by decide +kernel),
    trivial, trivial, hopens _ _ _ (by rfl) (by decide +kernel), hpresent _ _ _ (by rfl) (by decide +kernel), trivial⟩

/-- The command thread takes the text of the armed plan; the control loop starts the bend and writes the running
plan; the command thread writes the armed one over it. -/
def crossed : List StoreEvent :=
  .plan 0 400 60 0 :: PlanStore.saved ++ [.arm, .take .command, .tick PlanStore.readyInFloat, .move true false "",
    .report, .take .control, .openFile .control true, .writeFile .control none, .openFile .command true,
    .writeFile .command none]

/-- The plan is disarmed when the file cannot be opened. -/
def notOpened : List StoreEvent :=
  .plan 0 400 60 0 :: PlanStore.saved ++ .arm :: PlanStore.saved ++ [.disarm, .take .command, .openFile .command false]

/-- Texts that were taken in one order and written in the other leave the older one in the file; and a write that
failed is not marked to be made good. -/
theorem crossed_not_follows :
    ¬ Holds step Follows (boot {} (by decide) none : FileWatch 1) crossed ∧
      ¬ Holds step Follows (boot {} (by decide) none : FileWatch 1) notOpened := by
  refine ⟨fun h => ?_, fun h => ?_⟩
  · rcases h.last ⟨trivial, by decide +kernel⟩ with hin | ⟨hchanged, -⟩ | ⟨hfailed, -⟩
    · exact absurd hin (by unfold PlanStore.InFile; decide +kernel)
    · exact absurd hchanged (by decide +kernel)
    · exact absurd hfailed (by decide +kernel)
  · rcases h.last ⟨trivial, by decide +kernel⟩ with hin | ⟨hchanged, -⟩ | ⟨-, hdirty⟩
    · exact absurd hin (by unfold PlanStore.InFile; decide +kernel)
    · exact absurd hchanged (by decide +kernel)
    · exact absurd hdirty (by decide +kernel)

end FileWatch

end Coatheal.Fallback
