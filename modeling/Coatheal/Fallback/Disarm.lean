import Coatheal.Fallback.QuietPlan

/-!
# Whether a disarm is final

From the acknowledgement of FALLBACK_DISARM to the next accepted FALLBACK_ARM
the plan should be at rest, in memory and in its file, and no bend be started.
It is, unless the control loop comes late with what it began before: the start
of a bend, the answer that a start was refused, or an older text of the file.
-/

namespace Coatheal.Fallback

open Coatheal.Library

variable {n : ℕ}

namespace PlanStore

/-- The command thread saves the plan after a disarm. -/
def savesDisarm (s : PlanStore n) : Bool :=
  match s.command with
  | .saving .disarm _ => true
  | _ => false

/-- A step acknowledges FALLBACK_DISARM: its save is over. -/
def acknowledgesDisarm (s : PlanStore n) : StoreEvent → Bool
  | .restart _ _ => false
  | event => s.savesDisarm && (s.step event).command = .idle

/-- A step accepts FALLBACK_ARM. -/
def acceptsArm (s : PlanStore n) : StoreEvent → Bool
  | .arm => s.command = .idle && (s.step .arm).command ≠ .idle
  | _ => false

/-- A step starts a bend of the plan. -/
def startsBend (s : PlanStore n) : StoreEvent → Bool
  | .move accepted _ _ =>
    match s.control with
    | .starting _ => accepted
    | _ => false
  | _ => false

/-- The motors of the planner can be addressed. -/
theorem addressable (s : PlanStore n) : n ≤ 2 ^ 63 := s.planner.addressable

/-- The command thread writes the text of a plan it disarmed into the opened file. -/
def writesDisarm (s : PlanStore n) : Prop := ∃ text, s.command = .saving .disarm (.writing text)

/-- A loaded plan keeps the configuration. -/
theorem loadFrom_cfg (p : FallbackPlanner n) (file : Option (List Char)) : (p.loadFrom file).cfg = p.cfg := by
  cases file with
  | none => rfl
  | some text =>
    unfold FallbackPlanner.loadFrom FallbackPlanner.deserialize
    dsimp only
    split
    · rfl
    · split
      · rfl
      · split <;> rfl

/-- An edit keeps the configuration when the planner it makes does. -/
theorem edit_cfg {s : PlanStore n} (request : PlanRequest) {reply : Except String (FallbackPlanner n)}
    (hreply : ∀ planner, reply = .ok planner → planner.cfg = s.planner.cfg) :
    (s.edit request reply).planner.cfg = s.planner.cfg := by
  cases reply with
  | error text => rfl
  | ok planner => exact hreply planner rfl

/-- The configuration never changes. -/
theorem step_cfg (s : PlanStore n) (event : StoreEvent) : (s.step event).planner.cfg = s.planner.cfg := by
  cases event with
  | tick input =>
    unfold step
    dsimp only
    split
    · exact (FallbackPlanner.tick_noted s.planner input).cfg
    · rfl
  | move accepted retryLater error =>
    unfold step
    dsimp only
    split <;> rfl
  | report =>
    unfold step
    dsimp only
    split
    · exact (FallbackPlanner.reportStartResult_noted _ _ _ _ _).cfg
    · rfl
  | plan motorId targetUsteps holdS speedHz =>
    unfold step
    dsimp only
    split
    · refine edit_cfg _ fun planner hload => ?_
      cases hindex : (FallbackPlanner.index motorId : Option (Fin n)) with
      | none =>
        unfold FallbackPlanner.setMotorPlan at hload
        rw [hindex] at hload
        cases hload
      | some m =>
        obtain ⟨-, base, ⟨rfl, -⟩ | ⟨rfl, -⟩, rfl⟩ := FallbackPlanner.setMotorPlan_ok hindex hload <;> rfl
    · rfl
  | arm =>
    unfold step
    dsimp only
    split
    · refine edit_cfg _ fun planner harm => ?_
      obtain ⟨-, -, rfl⟩ := FallbackPlanner.arm_ok harm
      rfl
    · rfl
  | disarm =>
    unfold step
    dsimp only
    split
    · exact edit_cfg _ fun planner h => by rw [← Except.ok.inj h]; rfl
    · rfl
  | take thread =>
    unfold step
    dsimp only
    split
    · unfold take
      split
      · rw [(setSave_same _ _ thread).1]
        rfl
      · rw [(finish_same s thread).1]
    · rfl
  | openFile thread opens =>
    unfold step
    dsimp only
    split
    · unfold openFile
      split
      · rw [(setSave_same _ _ thread).1]
      · rw [(finish_same s thread).1]
    · rfl
  | writeFile thread count =>
    unfold step
    dsimp only
    split
    · rw [writeFile, (finish_same _ thread).1]
    · rfl
  | restart keptByControl keptByCommand => exact loadFrom_cfg _ _

end PlanStore

/-- The store, whether a disarm was acknowledged with no arming accepted since, and whether a bend was
started meanwhile. -/
structure DisarmWatch (n : ℕ) where
  store : PlanStore n
  disarmed : Bool
  startedLate : Bool

namespace DisarmWatch

/-- The onboard starts with what the file holds; nothing was disarmed yet. -/
def boot (cfg : FallbackPlannerConfig) (addressable : n ≤ 2 ^ 63) (file : Option (List Char)) :
    DisarmWatch n :=
  ⟨PlanStore.boot cfg addressable file, false, false⟩

/-- One step of the store, watched. -/
def step (w : DisarmWatch n) (event : StoreEvent) : DisarmWatch n where
  store := w.store.step event
  disarmed := w.disarmed && !w.store.acceptsArm event || w.store.acknowledgesDisarm event
  startedLate := w.startedLate || w.disarmed && w.store.startsBend event

/-- What a step may not do when a disarm is to be final. -/
def Orderly (w : DisarmWatch n) : StoreEvent → Prop
  -- The start of a bend does not come after the acknowledgement.
  | .move accepted retryLater error =>
    w.disarmed = true → w.store.startsBend (.move accepted retryLater error) = false
  -- A refused start is not reported after the disarm.
  | .report => ∀ action retryLater error,
    w.store.control = .started action false retryLater error → w.store.planner.state ≠ .none
  -- The control loop has not taken the mark for a text that is still to be written.
  | .take .command =>
    w.store.savesDisarm = true → w.store.planner.dirty = true ∨ QuietFile w.store.planner.cfg w.store.file
  -- The file can be opened.
  | .openFile .command opens =>
    w.store.savesDisarm = true → opens = true ∨ QuietFile w.store.planner.cfg w.store.file
  -- The control loop does not write an older text after the file was opened for the disarm.
  | .writeFile .control _ => w.disarmed = true ∨ w.store.writesDisarm →
    ∀ text, w.store.save? .control = some (.writing text) → Quiet w.store.planner.cfg text
  | .restart keptByControl _ => w.disarmed = true →
    ∀ text, w.store.save? .control = some (.writing text) → keptByControl = 0 ∨ Quiet w.store.planner.cfg text
  | _ => True

/-- While a disarm is in force or being saved the plan is at rest, and what is or will be in the file by
the command thread is quiet. -/
structure Hushed (w : DisarmWatch n) : Prop where
  onTime : w.startedLate = false
  rest : w.disarmed = true ∨ w.store.savesDisarm = true → w.store.planner.AtRest
  file : w.disarmed = true ∨ w.store.writesDisarm → QuietFile w.store.planner.cfg w.store.file
  text : w.disarmed = true ∨ w.store.savesDisarm = true → ∀ request text,
    w.store.command = .saving request (.opening text) ∨ w.store.command = .saving request (.writing text) →
      Quiet w.store.planner.cfg text

/-- A step that leaves the command thread where it is neither acknowledges nor accepts anything. -/
theorem step_disarmed_of_command {w : DisarmWatch n} {event : StoreEvent}
    (h : (w.store.step event).command = w.store.command) : (w.step event).disarmed = w.disarmed := by
  have hacknowledges : w.store.acknowledgesDisarm event = false := by
    have hno : (w.store.savesDisarm && decide ((w.store.step event).command = .idle)) = false := by
      rw [h]
      unfold PlanStore.savesDisarm
      split
      · rename_i heq
        rw [heq]
        rfl
      · rfl
    cases event with
    | restart keptByControl keptByCommand => rfl
    | _ => exact hno
  have haccepts : w.store.acceptsArm event = false := by
    cases event with
    | arm =>
      unfold PlanStore.acceptsArm
      dsimp only
      rw [h]
      cases hidle : decide (w.store.command = .idle) with
      | false => rfl
      | true => simp [of_decide_eq_true hidle]
    | _ => rfl
  simp [step, hacknowledges, haccepts]

/-- A step that leaves the command thread where it is keeps everything hushed when it keeps the plan at
rest and the file quiet. -/
theorem Hushed.of_command {w : DisarmWatch n} {event : StoreEvent} (h : w.Hushed)
    (hcommand : (w.store.step event).command = w.store.command)
    (honTime : w.disarmed = true → w.store.startsBend event = false)
    (hrest : w.store.planner.AtRest → (w.disarmed = true ∨ w.store.savesDisarm = true) →
      (w.store.step event).planner.AtRest)
    (hfile : QuietFile w.store.planner.cfg w.store.file → (w.disarmed = true ∨ w.store.writesDisarm) →
      QuietFile w.store.planner.cfg (w.store.step event).file) : (w.step event).Hushed := by
  have hdisarmed := step_disarmed_of_command hcommand
  have hsaves : (w.store.step event).savesDisarm = w.store.savesDisarm := by
    unfold PlanStore.savesDisarm
    rw [hcommand]
  have hwrites : (w.store.step event).writesDisarm ↔ w.store.writesDisarm := by
    unfold PlanStore.writesDisarm
    rw [hcommand]
  have hcfg := PlanStore.step_cfg w.store event
  refine ⟨?_, fun hguard => ?_, fun hguard => ?_, fun hguard => ?_⟩
  · show (w.startedLate || w.disarmed && w.store.startsBend event) = false
    cases hw : w.disarmed with
    | false => simp [h.onTime]
    | true => simp [h.onTime, honTime hw]
  · rw [hdisarmed] at hguard
    have hguard' : w.disarmed = true ∨ w.store.savesDisarm = true := hguard.imp_right fun hs => hsaves ▸ hs
    exact hrest (h.rest hguard') hguard'
  · rw [hdisarmed] at hguard
    have hguard' := hguard.imp_right hwrites.mp
    show QuietFile (w.store.step event).planner.cfg (w.store.step event).file
    rw [hcfg]
    exact hfile (h.file hguard') hguard'
  · rw [hdisarmed] at hguard
    have hguard' : w.disarmed = true ∨ w.store.savesDisarm = true := hguard.imp_right fun hs => hsaves ▸ hs
    intro request text htext
    have htext' : w.store.command = .saving request (.opening text) ∨
        w.store.command = .saving request (.writing text) := by
      rw [← hcommand]
      exact htext
    show Quiet (w.store.step event).planner.cfg text
    rw [hcfg]
    exact h.text hguard' request text htext'

/-- A step that does nothing keeps everything hushed. -/
theorem Hushed.of_same {w : DisarmWatch n} {event : StoreEvent} (h : w.Hushed)
    (hsame : w.store.step event = w.store)
    (honTime : w.disarmed = true → w.store.startsBend event = false) : (w.step event).Hushed := by
  refine h.of_command (by rw [hsame]) honTime (fun hrest _ => ?_) fun hfile _ => ?_
  · rw [hsame]
    exact hrest
  · rw [hsame]
    exact hfile

/-- When the command thread has finished a save, everything is hushed if the file is quiet. -/
theorem Hushed.of_finish {w : DisarmWatch n} {event : StoreEvent} (h : w.Hushed)
    (hplanner : (w.store.step event).planner = w.store.planner) (hidle : (w.store.step event).command = .idle)
    (hnostart : w.store.startsBend event = false) (hnoarm : w.store.acceptsArm event = false)
    (hfile : w.disarmed = true ∨ w.store.savesDisarm = true →
      QuietFile w.store.planner.cfg (w.store.step event).file)
    (hacknowledges : w.store.acknowledgesDisarm event = true → w.store.savesDisarm = true) :
    (w.step event).Hushed := by
  have hsaves : (w.step event).store.savesDisarm = false := by
    show (w.store.step event).savesDisarm = false
    unfold PlanStore.savesDisarm
    rw [hidle]
  have hguard : (w.step event).disarmed = true ∨ (w.step event).store.savesDisarm = true →
      w.disarmed = true ∨ w.store.savesDisarm = true := by
    rw [hsaves]
    intro hguard
    have hw : (w.disarmed && !w.store.acceptsArm event || w.store.acknowledgesDisarm event) = true :=
      hguard.resolve_right (by simp)
    rw [hnoarm, Bool.or_eq_true] at hw
    exact hw.imp (by simp) hacknowledges
  refine ⟨?_, fun hg => ?_, fun hg => ?_, fun hg request text htext => ?_⟩
  · show (w.startedLate || w.disarmed && w.store.startsBend event) = false
    rw [h.onTime, hnostart]
    simp
  · show (w.store.step event).planner.AtRest
    rw [hplanner]
    exact h.rest (hguard hg)
  · show QuietFile (w.store.step event).planner.cfg (w.store.step event).file
    rw [hplanner]
    refine hfile (hguard (hg.imp_right ?_))
    rintro ⟨text, htext⟩
    rw [show (w.step event).store.command = .idle from hidle] at htext
    cases htext
  · rw [show (w.step event).store.command = .idle from hidle] at htext
    rcases htext with htext | htext <;> cases htext

/-- When the command thread goes on with a save, everything is hushed if the new text is quiet, and so is the
file once it was opened. -/
theorem Hushed.of_save {w : DisarmWatch n} {event : StoreEvent} (h : w.Hushed) {request : PlanRequest}
    {before after : Save} (hbefore : w.store.command = .saving request before)
    (hafter : (w.store.step event).command = .saving request after)
    (hnostart : w.store.startsBend event = false) (hnoarm : w.store.acceptsArm event = false)
    (hrest : w.store.planner.AtRest → (w.store.step event).planner.AtRest)
    (hfile : w.disarmed = true ∨ (∃ text, after = .writing text) →
      QuietFile w.store.planner.cfg (w.store.step event).file)
    (htext : w.disarmed = true ∨ w.store.savesDisarm = true → ∀ text,
      after = .opening text ∨ after = .writing text → Quiet w.store.planner.cfg text) :
    (w.step event).Hushed := by
  have hsaves : (w.store.step event).savesDisarm = w.store.savesDisarm := by
    unfold PlanStore.savesDisarm
    rw [hbefore, hafter]
    cases request <;> rfl
  have hacknowledges : w.store.acknowledgesDisarm event = false := by
    unfold PlanStore.acknowledgesDisarm
    split
    · rfl
    · rw [hafter]
      simp
  have hdisarmed : (w.step event).disarmed = w.disarmed := by
    simp [DisarmWatch.step, hacknowledges, hnoarm]
  have hcfg := PlanStore.step_cfg w.store event
  have hguard : (w.step event).disarmed = true ∨ (w.step event).store.savesDisarm = true →
      w.disarmed = true ∨ w.store.savesDisarm = true := by
    rw [hdisarmed]
    exact Or.imp_right fun hs => hsaves ▸ hs
  refine ⟨?_, fun hg => hrest (h.rest (hguard hg)), fun hg => ?_, fun hg request' text hcommand => ?_⟩
  · show (w.startedLate || w.disarmed && w.store.startsBend event) = false
    rw [h.onTime, hnostart]
    simp
  · show QuietFile (w.store.step event).planner.cfg (w.store.step event).file
    rw [hcfg]
    rw [hdisarmed] at hg
    refine hfile (hg.imp_right ?_)
    rintro ⟨text, hwrites⟩
    rw [show (w.step event).store.command = .saving request after from hafter] at hwrites
    injection hwrites with _ hsave
    exact ⟨text, hsave⟩
  · show Quiet (w.store.step event).planner.cfg text
    rw [hcfg]
    rw [show (w.step event).store.command = .saving request after from hafter] at hcommand
    refine htext (hguard hg) text ?_
    rcases hcommand with hcommand | hcommand
    · injection hcommand with _ hsave
      exact Or.inl hsave
    · injection hcommand with _ hsave
      exact Or.inr hsave

/-- When the command thread has changed the planner, everything is hushed if the plan it left is at rest. -/
theorem Hushed.of_edit {w : DisarmWatch n} {event : StoreEvent} (h : w.Hushed) {request : PlanRequest}
    (hafter : (w.store.step event).command = .saving request .due)
    (hfile : (w.store.step event).file = w.store.file) (hnostart : w.store.startsBend event = false)
    (hrest : w.disarmed = true ∧ w.store.acceptsArm event = false ∨ request = .disarm →
      (w.store.step event).planner.AtRest) : (w.step event).Hushed := by
  have hsaves : (w.store.step event).savesDisarm = true → request = .disarm := by
    unfold PlanStore.savesDisarm
    rw [hafter]
    cases request <;> simp
  have hacknowledges : w.store.acknowledgesDisarm event = false := by
    unfold PlanStore.acknowledgesDisarm
    split
    · rfl
    · rw [hafter]
      simp
  have hdisarmed : (w.step event).disarmed = true → w.disarmed = true ∧ w.store.acceptsArm event = false := by
    simp [DisarmWatch.step, hacknowledges]
  have hcfg := PlanStore.step_cfg w.store event
  refine ⟨?_, fun hg => hrest (hg.imp hdisarmed hsaves), fun hg => ?_, fun _ request' text hcommand => ?_⟩
  · show (w.startedLate || w.disarmed && w.store.startsBend event) = false
    rw [h.onTime, hnostart]
    simp
  · show QuietFile (w.store.step event).planner.cfg (w.store.step event).file
    rw [hcfg, hfile]
    rcases hg with hg | ⟨text, hwrites⟩
    · exact h.file (Or.inl (hdisarmed hg).1)
    · rw [show (w.step event).store.command = .saving request .due from hafter] at hwrites
      cases hwrites
  · rw [show (w.step event).store.command = .saving request .due from hafter] at hcommand
    rcases hcommand with hcommand | hcommand <;> cases hcommand

/-- A restart keeps everything hushed when the control loop was not writing an older text. -/
theorem Hushed.of_restart {w : DisarmWatch n} (h : w.Hushed) (keptByControl keptByCommand : ℕ)
    (horderly : w.Orderly (.restart keptByControl keptByCommand)) :
    (w.step (.restart keptByControl keptByCommand)).Hushed := by
  have hcfg : (w.step (.restart keptByControl keptByCommand)).store.planner.cfg = w.store.planner.cfg :=
    PlanStore.step_cfg w.store _
  have hdisarmed : (w.step (.restart keptByControl keptByCommand)).disarmed = true → w.disarmed = true := by
    simp only [DisarmWatch.step, PlanStore.acknowledgesDisarm, Bool.or_false, Bool.and_eq_true]
    exact And.left
  have hfile : w.disarmed = true →
      QuietFile w.store.planner.cfg (w.step (.restart keptByControl keptByCommand)).store.file := by
    intro hw
    have hcontrol : QuietFile w.store.planner.cfg (w.store.cutShort .control keptByControl w.store.file) := by
      unfold PlanStore.cutShort
      split
      · rename_i text hsave
        refine quietFile_some (Quiet.overlay ?_ (h.file (Or.inl hw)))
        rcases horderly hw text hsave with rfl | hquiet
        · exact quiet_nil _
        · exact hquiet.take _
      · exact h.file (Or.inl hw)
    show QuietFile w.store.planner.cfg (w.store.cutShort .command keptByCommand _)
    unfold PlanStore.cutShort
    split
    · rename_i text hsave
      refine quietFile_some (Quiet.overlay (Quiet.take ?_ _) hcontrol)
      unfold PlanStore.save? at hsave
      dsimp only at hsave
      split at hsave
      · rename_i request save hcommand
        rw [Option.some.inj hsave] at hcommand
        exact h.text (Or.inl hw) request text (Or.inr hcommand)
      · cases hsave
    · exact hcontrol
  refine ⟨?_, fun hg => ?_, fun hg => ?_, fun _ request text htext => ?_⟩
  · show (w.startedLate || w.disarmed && false) = false
    simp [h.onTime]
  · have hw := hdisarmed (hg.resolve_right Bool.false_ne_true)
    exact FallbackPlanner.AtRest.loadFrom (hfile hw) _
  · have hw := hdisarmed (hg.resolve_right fun ⟨text, htext⟩ => nomatch htext)
    rw [hcfg]
    exact hfile hw
  · rcases htext with htext | htext <;> cases htext

/-- Every orderly step keeps everything hushed. -/
theorem Hushed.step {w : DisarmWatch n} {event : StoreEvent} (h : w.Hushed) (horderly : w.Orderly event) :
    (w.step event).Hushed := by
  have hcfg := PlanStore.step_cfg w.store event
  cases event with
  | tick input =>
    refine h.of_command ?_ (fun _ => rfl) (fun hrest _ => ?_) fun hfile _ => ?_
    all_goals
      unfold PlanStore.step
      dsimp only
      split
    · rfl
    · rfl
    · exact (hrest.tick input).1
    · exact hrest
    · exact hfile
    · exact hfile
  | move accepted retryLater error =>
    refine h.of_command ?_ horderly (fun hrest _ => ?_) fun hfile _ => ?_
    all_goals
      unfold PlanStore.step
      dsimp only
      split
    · rfl
    · rfl
    · exact hrest
    · exact hrest
    · exact hfile
    · exact hfile
  | report =>
    refine h.of_command ?_ (fun _ => rfl) (fun hrest hguard => ?_) fun hfile _ => ?_
    all_goals
      unfold PlanStore.step
      dsimp only
      split
    · rfl
    · rfl
    · rename_i action accepted retryLater error hcontrol
      cases accepted with
      | true =>
        unfold FallbackPlanner.reportStartResult
        split
        · exact hrest
        · rw [if_pos rfl]
          exact hrest
      | false => exact absurd hrest.state (horderly action retryLater error hcontrol)
    · exact hrest
    · exact hfile
    · exact hfile
  | plan motorId targetUsteps holdS speedHz =>
    cases hcommand : w.store.command with
    | saving request save => exact h.of_same (by simp [PlanStore.step, hcommand]) fun _ => rfl
    | idle =>
      cases hload : w.store.planner.setMotorPlan motorId targetUsteps holdS speedHz with
      | error text => exact h.of_same (by simp [PlanStore.step, hcommand, hload, PlanStore.edit]) fun _ => rfl
      | ok planner =>
        have hstep : w.store.step (.plan motorId targetUsteps holdS speedHz) =
            { w.store with planner := planner, command := .saving .plan .due } := by
          simp [PlanStore.step, hcommand, hload, PlanStore.edit]
        refine h.of_edit (by rw [hstep]) (by rw [hstep]) rfl fun hg => ?_
        rw [hstep]
        rcases hg with ⟨hdisarmed, -⟩ | hrequest
        · exact (h.rest (Or.inl hdisarmed)).setMotorPlan hload
        · cases hrequest
  | arm =>
    cases hcommand : w.store.command with
    | saving request save => exact h.of_same (by simp [PlanStore.step, hcommand]) fun _ => rfl
    | idle =>
      cases harm : w.store.planner.arm with
      | error text => exact h.of_same (by simp [PlanStore.step, hcommand, harm, PlanStore.edit]) fun _ => rfl
      | ok planner =>
        have hstep : w.store.step .arm = { w.store with planner := planner, command := .saving .arm .due } := by
          simp [PlanStore.step, hcommand, harm, PlanStore.edit]
        refine h.of_edit (by rw [hstep]) (by rw [hstep]) rfl fun hg => ?_
        rcases hg with ⟨-, hrefused⟩ | hrequest
        · simp [PlanStore.acceptsArm, hcommand, hstep] at hrefused
        · cases hrequest
  | disarm =>
    cases hcommand : w.store.command with
    | saving request save => exact h.of_same (by simp [PlanStore.step, hcommand]) fun _ => rfl
    | idle =>
      have hstep : w.store.step .disarm =
          { w.store with planner := w.store.planner.disarm, command := .saving .disarm .due } := by
        simp [PlanStore.step, hcommand, PlanStore.edit]
      refine h.of_edit (by rw [hstep]) (by rw [hstep]) rfl fun _ => ?_
      rw [hstep]
      exact FallbackPlanner.AtRest.disarm _
  | take thread =>
    cases thread with
    | control =>
      refine h.of_command ?_ (fun _ => rfl) (fun hrest _ => ?_) fun hfile _ => ?_
      all_goals
        unfold PlanStore.step
        dsimp only
        split
      · unfold PlanStore.take
        split <;> rfl
      · rfl
      · unfold PlanStore.take
        split
        · exact ⟨hrest.state, hrest.motors⟩
        · exact hrest
      · exact hrest
      · unfold PlanStore.take
        split <;> exact hfile
      · exact hfile
    | command =>
      cases hcommand : w.store.command with
      | idle => exact h.of_same (by simp [PlanStore.step, PlanStore.save?, hcommand]) fun _ => rfl
      | saving request save =>
        cases save with
        | opening text => exact h.of_same (by simp [PlanStore.step, PlanStore.save?, hcommand]) fun _ => rfl
        | writing text => exact h.of_same (by simp [PlanStore.step, PlanStore.save?, hcommand]) fun _ => rfl
        | due =>
          cases hdirty : w.store.planner.dirty with
          | true =>
            have hstep : w.store.step (.take .command) =
                { w.store with
                  planner := w.store.planner.takeDirty.2
                  command := .saving request (.opening w.store.planner.serialize) } := by
              simp [PlanStore.step, PlanStore.save?, hcommand, PlanStore.take, hdirty, PlanStore.setSave]
            refine h.of_save hcommand (by rw [hstep]) rfl rfl (fun hrest => ?_) (fun hg => ?_) fun hg text htext => ?_
            · rw [hstep]
              exact ⟨hrest.state, hrest.motors⟩
            · rw [hstep]
              rcases hg with hg | ⟨text, htext⟩
              · exact h.file (Or.inl hg)
              · cases htext
            · rcases htext with htext | htext
              · obtain rfl := Save.opening.inj htext
                exact (h.rest hg).quiet_serialize
              · cases htext
          | false =>
            have hstep : w.store.step (.take .command) = { w.store with command := .idle } := by
              simp [PlanStore.step, PlanStore.save?, hcommand, PlanStore.take, hdirty, PlanStore.finish]
            refine h.of_finish (by rw [hstep]) (by rw [hstep]) rfl rfl (fun hg => ?_) fun ha => ?_
            · rw [hstep]
              rcases hg with hg | hg
              · exact h.file (Or.inl hg)
              · refine (horderly hg).resolve_left ?_
                rw [hdirty]
                exact Bool.false_ne_true
            · exact (Bool.and_eq_true_iff.mp ha).1
  | openFile thread opens =>
    cases thread with
    | control =>
      refine h.of_command ?_ (fun _ => rfl) (fun hrest _ => ?_) fun hfile _ => ?_
      all_goals
        unfold PlanStore.step
        dsimp only
        split
      · unfold PlanStore.openFile
        split <;> rfl
      · rfl
      · unfold PlanStore.openFile
        split <;> exact hrest
      · exact hrest
      · unfold PlanStore.openFile
        split
        · exact quietFile_nil _
        · exact hfile
      · exact hfile
    | command =>
      cases hcommand : w.store.command with
      | idle => exact h.of_same (by simp [PlanStore.step, PlanStore.save?, hcommand]) fun _ => rfl
      | saving request save =>
        cases save with
        | due => exact h.of_same (by simp [PlanStore.step, PlanStore.save?, hcommand]) fun _ => rfl
        | writing text => exact h.of_same (by simp [PlanStore.step, PlanStore.save?, hcommand]) fun _ => rfl
        | opening text =>
          cases opens with
          | true =>
            have hstep : w.store.step (.openFile .command true) =
                { w.store with file := some [], command := .saving request (.writing text) } := by
              simp [PlanStore.step, PlanStore.save?, hcommand, PlanStore.openFile, PlanStore.setSave]
            refine h.of_save hcommand (by rw [hstep]) rfl rfl (fun hrest => ?_) (fun hg => ?_) fun hg text' htext => ?_
            · rw [hstep]
              exact hrest
            · rw [hstep]
              exact quietFile_nil _
            · rcases htext with htext | htext
              · cases htext
              · obtain rfl := Save.writing.inj htext
                exact h.text hg request text (Or.inl hcommand)
          | false =>
            have hstep : w.store.step (.openFile .command false) = { w.store with command := .idle } := by
              simp [PlanStore.step, PlanStore.save?, hcommand, PlanStore.openFile, PlanStore.finish]
            refine h.of_finish (by rw [hstep]) (by rw [hstep]) rfl rfl (fun hg => ?_) fun ha => ?_
            · rw [hstep]
              rcases hg with hg | hg
              · exact h.file (Or.inl hg)
              · exact (horderly hg).resolve_left Bool.false_ne_true
            · exact (Bool.and_eq_true_iff.mp ha).1
  | writeFile thread count =>
    cases thread with
    | control =>
      refine h.of_command ?_ (fun _ => rfl) (fun hrest _ => ?_) fun hfile hg => ?_
      all_goals
        unfold PlanStore.step
        dsimp only
        split
      · rfl
      · rfl
      · exact hrest
      · exact hrest
      · rename_i text hsave
        exact quietFile_some (((horderly hg text hsave).kept count).overlay hfile)
      · exact hfile
    | command =>
      cases hcommand : w.store.command with
      | idle => exact h.of_same (by simp [PlanStore.step, PlanStore.save?, hcommand]) fun _ => rfl
      | saving request save =>
        cases save with
        | due => exact h.of_same (by simp [PlanStore.step, PlanStore.save?, hcommand]) fun _ => rfl
        | opening text => exact h.of_same (by simp [PlanStore.step, PlanStore.save?, hcommand]) fun _ => rfl
        | writing text =>
          have hstep : w.store.step (.writeFile .command count) =
              { w.store with file := some (overlay (kept text count) w.store.file), command := .idle } := by
            simp [PlanStore.step, PlanStore.save?, hcommand, PlanStore.writeFile, PlanStore.finish]
          refine h.of_finish (by rw [hstep]) (by rw [hstep]) rfl rfl (fun hg => ?_) fun ha => ?_
          · rw [hstep]
            have hwrites : w.disarmed = true ∨ w.store.writesDisarm := by
              refine hg.imp_right fun hsaves => ⟨text, ?_⟩
              revert hsaves
              unfold PlanStore.savesDisarm
              rw [hcommand]
              cases request <;> simp
            have htext := h.text hg request text (Or.inr hcommand)
            exact quietFile_some ((htext.kept count).overlay (h.file hwrites))
          · exact (Bool.and_eq_true_iff.mp ha).1
  | restart keptByControl keptByCommand =>
    exact h.of_restart keptByControl keptByCommand horderly

end DisarmWatch

end Coatheal.Fallback
