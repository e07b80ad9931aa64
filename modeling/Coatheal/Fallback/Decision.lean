import Coatheal.Fallback.Planner

/-!
# What one tick can do

Completion tracking only ends running bends; the search for the next motor
skips motors that are not ready after the deadline and starts at most one. The
results of both are put together as one description of a tick.
-/

namespace Coatheal.Fallback

open Coatheal.Library

namespace FallbackPlanner

variable {n : ℕ}

/-- Putting a motor in a new state changes nothing else of it. -/
theorem setMotorState_motors (p : FallbackPlanner n) (i : Fin n) (state : FallbackMotorState)
    (j : Fin n) :
    (p.setMotorState i state).motors j =
      if j = i then { p.motors i with state := state } else p.motors j := by
  simp only [setMotorState, Function.update_apply]

/-- What tracking does to one motor: nothing, or its running bend is done or failed. -/
def Tracked (before after : FallbackMotorPlan) : Prop :=
  after = before ∨ before.state = .running ∧
    (after = { before with state := .done } ∨ after = { before with state := .failed })

/-- Completion tracking from one planner to another: motors are tracked, the plan stands. -/
structure Tracks (p q : FallbackPlanner n) : Prop where
  motors : ∀ i, Tracked (p.motors i) (q.motors i)
  cfg : q.cfg = p.cfg
  state : q.state = p.state
  deadlineStarted : q.deadlineStarted = p.deadlineStarted
  deadlineStart : q.deadlineStart = p.deadlineStart

/-- Tracking twice is tracking. -/
theorem Tracks.trans {p q r : FallbackPlanner n} (h : Tracks p q) (h' : Tracks q r) :
    Tracks p r := by
  refine ⟨fun i => ?_, h'.cfg.trans h.cfg, h'.state.trans h.state,
    h'.deadlineStarted.trans h.deadlineStarted, h'.deadlineStart.trans h.deadlineStart⟩
  rcases h.motors i with heq | ⟨hrun, heq | heq⟩
  · rw [← heq]
    exact h'.motors i
  all_goals
    rcases h'.motors i with heq' | ⟨hrun', -⟩
    · rw [heq']
      exact h.motors i
    · rw [heq] at hrun'
      cases hrun'

/-- Tracking one motor. -/
theorem trackOne_tracks (input : FallbackTickInput) (p : FallbackPlanner n) (i : Fin n) :
    Tracks p (trackOne input p i) := by
  have hsame : ∀ q : FallbackPlanner n, q.motors = p.motors → q.cfg = p.cfg → q.state = p.state →
      q.deadlineStarted = p.deadlineStarted → q.deadlineStart = p.deadlineStart → Tracks p q :=
    fun q hm hc hs hd ht => ⟨fun j => Or.inl (congrFun hm j), hc, hs, hd, ht⟩
  unfold trackOne
  by_cases hrun : (p.motors i).state = .running
  · simp only [if_pos hrun]
    have hset : ∀ state, state = .done ∨ state = .failed → ∀ j,
        Tracked (p.motors j) ((p.setMotorState i state).motors j) := by
      intro state hstate j
      rw [setMotorState_motors]
      by_cases hj : j = i
      · rw [if_pos hj, hj]
        rcases hstate with rfl | rfl
        · exact Or.inr ⟨hrun, Or.inl rfl⟩
        · exact Or.inr ⟨hrun, Or.inr rfl⟩
      · rw [if_neg hj]
        exact Or.inl rfl
    split
    · split
      · exact ⟨hset .failed (Or.inr rfl), rfl, rfl, rfl, rfl⟩
      · exact ⟨hset .done (Or.inl rfl), rfl, rfl, rfl, rfl⟩
    · exact hsame _ rfl rfl rfl rfl rfl
  · rw [if_neg hrun]
    exact hsame p rfl rfl rfl rfl rfl

/-- Tracking a list of motors. -/
theorem foldl_trackOne_tracks (input : FallbackTickInput) (l : List (Fin n))
    (p : FallbackPlanner n) : Tracks p (l.foldl (trackOne input) p) := by
  induction l generalizing p with
  | nil => exact ⟨fun _ => Or.inl rfl, rfl, rfl, rfl, rfl⟩
  | cons i l ih => exact (trackOne_tracks input p i).trans (ih _)

/-- Settling leaves all but the plan's state, and ends the plan if it does anything. -/
theorem settle_cases (p : FallbackPlanner n) :
    p.settle = p ∨ ∃ state, (state = .done ∨ state = .failed) ∧
      p.settle = { p with state := state, dirty := true } := by
  unfold settle
  split
  · refine Or.inr ⟨_, ?_, rfl⟩
    split
    · exact Or.inr rfl
    · exact Or.inl rfl
  · exact Or.inl rfl

/-- What tracking does to the plan's state: nothing, or a running plan ends. -/
theorem track_spec (p : FallbackPlanner n) (input : FallbackTickInput) :
    (∀ i, Tracked (p.motors i) ((p.track input).motors i)) ∧ (p.track input).cfg = p.cfg ∧
      (p.track input).deadlineStarted = p.deadlineStarted ∧
      (p.track input).deadlineStart = p.deadlineStart ∧
      ((p.track input).state = p.state ∨
        p.state = .running ∧ ((p.track input).state = .done ∨ (p.track input).state = .failed)) := by
  have h := foldl_trackOne_tracks input (List.finRange n) p
  unfold track
  simp only
  split
  · rename_i hrun
    rcases settle_cases ((List.finRange n).foldl (trackOne input) p) with heq | ⟨state, hst, heq⟩
    · rw [heq]
      exact ⟨h.motors, h.cfg, h.deadlineStarted, h.deadlineStart, Or.inl h.state⟩
    · rw [heq]
      exact ⟨h.motors, h.cfg, h.deadlineStarted, h.deadlineStart, Or.inr ⟨h.state ▸ hrun, hst⟩⟩
  · exact ⟨h.motors, h.cfg, h.deadlineStarted, h.deadlineStart, Or.inl h.state⟩

/-- Pending motors of a list are skipped; everything else stands. -/
structure Skips (skipped : List (Fin n)) (p q : FallbackPlanner n) : Prop where
  motors : ∀ i, q.motors i = p.motors i ∨ i ∈ skipped ∧ (p.motors i).configured = true ∧
    (p.motors i).state = .pending ∧ q.motors i = { p.motors i with state := .skipped }
  cfg : q.cfg = p.cfg
  state : q.state = p.state
  deadlineStarted : q.deadlineStarted = p.deadlineStarted
  deadlineStart : q.deadlineStart = p.deadlineStart

/-- Nothing is skipped. -/
theorem Skips.refl (skipped : List (Fin n)) (p : FallbackPlanner n) : Skips skipped p p :=
  ⟨fun _ => Or.inl rfl, rfl, rfl, rfl, rfl⟩

/-- A list with one more motor. -/
theorem Skips.later {skipped : List (Fin n)} {p q : FallbackPlanner n} (i : Fin n)
    (h : Skips skipped p q) : Skips (i :: skipped) p q := by
  refine ⟨fun j => ?_, h.cfg, h.state, h.deadlineStarted, h.deadlineStart⟩
  rcases h.motors j with heq | ⟨hmem, hrest⟩
  · exact Or.inl heq
  · exact Or.inr ⟨List.mem_cons_of_mem _ hmem, hrest⟩

/-- One motor is skipped and then others. -/
theorem Skips.first {skipped : List (Fin n)} {p q : FallbackPlanner n} {i : Fin n}
    (hconfigured : (p.motors i).configured = true) (hpending : (p.motors i).state = .pending)
    (h : Skips skipped { p.setMotorState i .skipped with dirty := true } q) :
    Skips (i :: skipped) p q := by
  refine ⟨fun j => ?_, h.cfg, h.state, h.deadlineStarted, h.deadlineStart⟩
  have hset := setMotorState_motors p i .skipped j
  by_cases hj : j = i
  · subst hj
    rw [if_pos rfl] at hset
    refine Or.inr ⟨List.mem_cons_self, hconfigured, hpending, ?_⟩
    rcases h.motors j with heq | ⟨-, -, hstate, -⟩
    · exact heq.trans hset
    · have hstate' : ((p.setMotorState j .skipped).motors j).state = .pending := hstate
      rw [hset] at hstate'
      cases hstate'
  · rw [if_neg hj] at hset
    have hmotor : ∀ plan, ({ p.setMotorState i .skipped with dirty := true } :
        FallbackPlanner n).motors j = plan → p.motors j = plan := fun plan heq => hset ▸ heq
    rcases h.motors j with heq | ⟨hmem, hconf, hstate, heq⟩
    · exact Or.inl (heq.trans (hmotor _ rfl).symm)
    · rw [← hmotor _ rfl] at hconf hstate heq
      exact Or.inr ⟨List.mem_cons_of_mem _ hmem, hconf, hstate, heq⟩

/-- A motor that is passed by is still passed by after skips. -/
theorem Skips.passed {skipped : List (Fin n)} {p q : FallbackPlanner n} (h : Skips skipped p q)
    {j : Fin n} (hpass : (p.motors j).configured = false ∨ (p.motors j).state ≠ .pending) :
    (q.motors j).configured = false ∨ (q.motors j).state ≠ .pending := by
  rcases h.motors j with heq | ⟨-, -, -, heq⟩
  · rw [heq]
    exact hpass
  · rw [heq]
    exact Or.inr nofun

/-- The search that starts nothing only skips, and may end the plan. -/
theorem startLoop_none {input : FallbackTickInput} {deadlinePassed : Bool} {l : List (Fin n)}
    {p : FallbackPlanner n} (h : (startLoop input deadlinePassed l p).2 = none) :
    ∃ q, Skips l p q ∧ ((startLoop input deadlinePassed l p).1 = q ∨
      (startLoop input deadlinePassed l p).1 = q.settle) := by
  induction l generalizing p with
  | nil => exact ⟨p, Skips.refl _ p, Or.inr rfl⟩
  | cons i l ih =>
    unfold startLoop at h ⊢
    simp only at h ⊢
    split at h
    · rename_i hpass
      obtain ⟨q, hq, hend⟩ := ih h
      rw [if_pos hpass]
      exact ⟨q, hq.later i, hend⟩
    rename_i hplan
    rw [if_neg hplan]
    split at h
    · cases h
    rename_i hwait
    rw [if_neg hwait]
    split at h
    · rename_i hskip
      rw [if_pos hskip]
      obtain ⟨q, hq, hend⟩ := ih h
      push Not at hplan
      exact ⟨q, hq.first (by simpa using hplan.1) hplan.2, hend⟩
    · rename_i hskip
      rw [if_neg hskip]
      exact ⟨p, Skips.refl _ p, Or.inl rfl⟩

/-- The search that starts a motor skipped some before it, passed by the others before it, and found
it pending and ready, in the window or after the deadline. -/
theorem startLoop_some {input : FallbackTickInput} {deadlinePassed : Bool} {l : List (Fin n)}
    {p : FallbackPlanner n} {action : FallbackAction n}
    (h : (startLoop input deadlinePassed l p).2 = some action) :
    ∃ q passed rest, l = passed ++ action.motorId :: rest ∧ Skips passed p q ∧
      (∀ j ∈ passed, (q.motors j).configured = false ∨ (q.motors j).state ≠ .pending) ∧
      (q.motors action.motorId).configured = true ∧ (q.motors action.motorId).state = .pending ∧
      (input.motor action.motorId).ready = true ∧
      ((input.motor action.motorId).windowOk p.cfg = true ∨ deadlinePassed = true) ∧
      (startLoop input deadlinePassed l p).1 = (q.begin action.motorId).1 ∧
      action = (q.begin action.motorId).2 := by
  induction l generalizing p with
  | nil => simp [startLoop] at h
  | cons i l ih =>
    unfold startLoop at h ⊢
    simp only at h ⊢
    split at h
    · rename_i hpass
      obtain ⟨q, passed, rest, hl, hq, hpassed, hrest⟩ := ih h
      rw [if_pos hpass]
      refine ⟨q, i :: passed, rest, by rw [hl, List.cons_append], hq.later i, ?_, hrest⟩
      intro j hj
      rcases List.mem_cons.mp hj with rfl | hmem
      · exact hq.passed hpass
      · exact hpassed j hmem
    rename_i hplan
    rw [if_neg hplan]
    push Not at hplan
    have hconfigured : (p.motors i).configured = true := by simpa using hplan.1
    split at h
    · rename_i hready
      rw [if_pos hready]
      have hid : action = (p.begin i).2 := (Option.some.inj h).symm
      subst hid
      exact ⟨p, [], l, rfl, Skips.refl _ p, by simp, hconfigured, hplan.2, hready.1, hready.2, rfl,
        rfl⟩
    rename_i hwait
    rw [if_neg hwait]
    split at h
    · rename_i hskip
      rw [if_pos hskip]
      obtain ⟨q, passed, rest, hl, hq, hpassed, hrest⟩ := ih h
      refine ⟨q, i :: passed, rest, by rw [hl, List.cons_append], hq.first hconfigured hplan.2, ?_,
        hrest⟩
      intro j hj
      rcases List.mem_cons.mp hj with rfl | hmem
      · refine hq.passed (Or.inr ?_)
        simp [setMotorState_motors]
      · exact hpassed j hmem
    · cases h

/-- No motor runs exactly when none is found running. -/
theorem anyRunning_eq_false {p : FallbackPlanner n} :
    p.anyRunning = false ↔ ∀ i, (p.motors i).state ≠ .running := by
  simp [anyRunning]

/-- In a list of all motors in id order, those before a motor are the ones with a lower id. -/
theorem mem_passed_of_lt {passed rest : List (Fin n)} {i j : Fin n}
    (hl : List.finRange n = passed ++ i :: rest) (hj : j < i) : j ∈ passed := by
  have hsorted : (passed ++ i :: rest).Pairwise (· < ·) := hl ▸ List.pairwise_lt_finRange n
  have hmem : j ∈ passed ++ i :: rest := hl ▸ List.mem_finRange j
  rcases List.mem_append.mp hmem with hin | hin
  · exact hin
  rcases List.mem_cons.mp hin with rfl | hin
  · exact absurd hj (Fin.lt_irrefl j)
  · have htail : (i :: rest).Pairwise (· < ·) := (List.pairwise_append.mp hsorted).2.1
    exact absurd hj (Fin.lt_asymm (List.rel_of_pairwise_cons htail hin))

/-- The time the deadline counts from at a tick inside the window. -/
def deadlineFrom (p : FallbackPlanner n) (now : ℤ) : ℤ :=
  if p.deadlineStarted then p.deadlineStart else now

/-- Starting the deadline clock fixes the time it counts from and nothing else. -/
theorem startDeadline_spec (p : FallbackPlanner n) (now : ℤ) :
    (p.startDeadline now).motors = p.motors ∧ (p.startDeadline now).state = p.state ∧
      (p.startDeadline now).cfg = p.cfg ∧ (p.startDeadline now).deadlineStarted = true ∧
      (p.startDeadline now).deadlineStart = p.deadlineFrom now := by
  unfold startDeadline deadlineFrom
  split
  · rename_i hstarted
    exact ⟨rfl, rfl, rfl, hstarted, rfl⟩
  · exact ⟨rfl, rfl, rfl, rfl, rfl⟩

/-- What a tick does to a motor it does not start: nothing, or its running bend is done or failed,
or its pending bend is skipped. -/
def Moves (before after : FallbackMotorPlan) : Prop :=
  Tracked before after ∨ before.configured = true ∧ before.state = .pending ∧
    after = { before with state := .skipped }

/-- What a tick does. -/
structure Ticked (p : FallbackPlanner n) (input : FallbackTickInput) (q : FallbackPlanner n)
    (action : Option (FallbackAction n)) : Prop where
  motors : ∀ i, (∀ a, action = some a → a.motorId ≠ i) → Moves (p.motors i) (q.motors i)
  started : ∀ a, action = some a →
    q.motors a.motorId = { p.motors a.motorId with state := .running }
  state : q.state = p.state ∨ p.armed = true ∧ q.state ≠ .none
  deadlineStarted : q.deadlineStarted = (p.deadlineStarted ||
    ((p.track input).armed && input.windowPhase))
  deadlineStart : q.deadlineStarted = true → q.deadlineStart = p.deadlineFrom input.now

/-- What holds when a tick starts a bend. -/
structure Startable (p : FallbackPlanner n) (input : FallbackTickInput) (q : FallbackPlanner n)
    (action : FallbackAction n) : Prop where
  window : input.windowPhase = true
  armed : (p.track input).armed = true
  configured : (p.motors action.motorId).configured = true
  pending : (p.motors action.motorId).state = .pending
  bend : action = ⟨action.motorId, (p.motors action.motorId).targetUsteps,
    (p.motors action.motorId).holdS, (p.motors action.motorId).speedHz⟩
  ready : (input.motor action.motorId).ready = true
  noneRunning : ∀ j, ((p.track input).motors j).state ≠ .running
  lower : ∀ j, j < action.motorId → (q.motors j).state ≠ .running ∧
    ((q.motors j).configured = false ∨ (q.motors j).state ≠ .pending)
  warm : (input.motor action.motorId).windowOk p.cfg = true ∨
    p.cfg.deadlineReached (p.deadlineFrom input.now) input.now = true
  running : q.state = .running

/-- A tick that starts nothing for want of an armed plan or of the window only tracks. -/
theorem ticked_track {p : FallbackPlanner n} {input : FallbackTickInput}
    (h : ((p.track input).armed && input.windowPhase) = false) :
    Ticked p input (p.track input) none := by
  obtain ⟨hmotors, -, hstarted, hstart, hstate⟩ := track_spec p input
  refine ⟨fun i _ => Or.inl (hmotors i), nofun, ?_, ?_, fun hq => ?_⟩
  · rcases hstate with heq | ⟨hrun, hend⟩
    · exact Or.inl heq
    · refine Or.inr ⟨armed_iff.mpr (Or.inr hrun), ?_⟩
      rcases hend with heq | heq <;> rw [heq] <;> nofun
  · rw [h, Bool.or_false, hstarted]
  · rw [hstarted] at hq
    rw [hstart, deadlineFrom, if_pos hq]

/-- Tracking, the deadline clock and skips together. -/
theorem ticked_skips {p q : FallbackPlanner n} {input : FallbackTickInput} {skipped : List (Fin n)}
    (h : ((p.track input).armed && input.windowPhase) = true)
    (hskips : Skips skipped ((p.track input).startDeadline input.now) q) :
    Ticked p input q none ∧ q.armed = true ∧ p.armed = true := by
  obtain ⟨hmotors, -, hstarted, hstart, hstate⟩ := track_spec p input
  obtain ⟨hdmotors, hdstate, -, hdstarted, hdstart⟩ :=
    startDeadline_spec (p.track input) input.now
  have harmed : (p.track input).armed = true := (Bool.and_eq_true_iff.mp h).1
  have hsame : (p.track input).state = p.state := by
    rcases hstate with heq | ⟨-, heq | heq⟩
    · exact heq
    all_goals
      rcases armed_iff.mp harmed with ha | ha <;> rw [heq] at ha <;> cases ha
  have hqstate : q.state = p.state := (hskips.state.trans hdstate).trans hsame
  have hparmed : p.armed = true := by
    rw [armed_iff, ← hsame]
    exact armed_iff.mp harmed
  refine ⟨⟨fun i _ => ?_, nofun, Or.inl hqstate, ?_, fun _ => ?_⟩, ?_, hparmed⟩
  · rcases hskips.motors i with heq | ⟨-, hconfigured, hpending, heq⟩
    · rw [heq, hdmotors]
      exact Or.inl (hmotors i)
    · rw [hdmotors] at hconfigured hpending heq
      rcases hmotors i with htrack | ⟨-, htrack | htrack⟩
      · rw [htrack] at hconfigured hpending heq
        exact Or.inr ⟨hconfigured, hpending, heq⟩
      all_goals
        rw [htrack] at hpending
        cases hpending
  · rw [hskips.deadlineStarted, hdstarted, h, Bool.or_true]
  · rw [hskips.deadlineStart, hdstart, deadlineFrom, deadlineFrom, hstarted, hstart]
  · rw [armed_iff, hqstate]
    exact armed_iff.mp hparmed

/-- What one tick does. -/
theorem tick_spec (p : FallbackPlanner n) (input : FallbackTickInput) :
    Ticked p input (p.tick input).1 (p.tick input).2 := by
  unfold tick
  simp only
  by_cases hopen : ((p.track input).armed && input.windowPhase) = true
  · obtain ⟨harmed, hwindow⟩ := Bool.and_eq_true_iff.mp hopen
    rw [if_neg (by simp [harmed]), if_neg (by simp [hwindow])]
    split
    · exact (ticked_skips hopen (Skips.refl [] _)).1
    cases haction : (startLoop input _ (List.finRange n)
        ((p.track input).startDeadline input.now)).2 with
    | none =>
      obtain ⟨q, hskips, hend⟩ := startLoop_none haction
      obtain ⟨hticked, -, hparmed⟩ := ticked_skips hopen hskips
      rcases hend with heq | heq
      · rw [heq]
        exact hticked
      · rw [heq]
        rcases settle_cases q with hsettle | ⟨state, hstate, hsettle⟩
        · rw [hsettle]
          exact hticked
        · rw [hsettle]
          refine ⟨hticked.motors, nofun, Or.inr ⟨hparmed, ?_⟩, hticked.deadlineStarted,
            hticked.deadlineStart⟩
          rcases hstate with rfl | rfl <;> nofun
    | some action =>
      obtain ⟨q, passed, rest, hl, hskips, hpassed, hconfigured, hpending, -, -, hfst, hbegin⟩ :=
        startLoop_some haction
      obtain ⟨hticked, -, hparmed⟩ := ticked_skips hopen hskips
      rw [hfst]
      refine ⟨fun i hother => ?_, fun a ha => ?_, Or.inr ⟨hparmed, nofun⟩,
        hticked.deadlineStarted, hticked.deadlineStart⟩
      · have hne : i ≠ action.motorId := fun heq => hother action rfl heq.symm
        have hkept : (q.begin action.motorId).1.motors i = q.motors i :=
          (setMotorState_motors q action.motorId .running i).trans (if_neg hne)
        rw [hkept]
        exact hticked.motors i nofun
      · cases ha
        have hset : (q.begin action.motorId).1.motors action.motorId =
            { q.motors action.motorId with state := .running } :=
          (setMotorState_motors q action.motorId .running _).trans (if_pos rfl)
        rw [hset]
        rcases hticked.motors action.motorId nofun with (heq | ⟨-, heq | heq⟩) | ⟨-, -, heq⟩
        · rw [heq]
        all_goals rw [heq]
  · have hclosed : ((p.track input).armed && input.windowPhase) = false :=
      Bool.eq_false_iff.mpr hopen
    rcases Bool.and_eq_false_iff.mp hclosed with harmed | hwindow
    · rw [if_pos harmed]
      exact ticked_track hclosed
    · rw [if_pos hwindow]
      split <;> exact ticked_track hclosed

/-- What holds when one tick starts a bend. -/
theorem tick_startable {p : FallbackPlanner n} {input : FallbackTickInput}
    {action : FallbackAction n} (h : (p.tick input).2 = some action) :
    Startable p input (p.tick input).1 action := by
  unfold tick at h ⊢
  simp only at h ⊢
  by_cases harmed : (p.track input).armed = false
  · rw [if_pos harmed] at h
    cases h
  rw [if_neg harmed] at h ⊢
  by_cases hwindow : input.windowPhase = false
  · rw [if_pos hwindow] at h
    cases h
  rw [if_neg hwindow] at h ⊢
  have hopen : ((p.track input).armed && input.windowPhase) = true := by
    simp [harmed, hwindow]
  obtain ⟨harmed, hwindow⟩ := Bool.and_eq_true_iff.mp hopen
  by_cases hrunning : ((p.track input).startDeadline input.now).anyRunning = true
  · rw [if_pos hrunning] at h
    cases h
  rw [if_neg hrunning] at h ⊢
  obtain ⟨hmotors, hcfg, hstarted, hstart, -⟩ := track_spec p input
  obtain ⟨hdmotors, -, hdcfg, hdstarted, hdstart⟩ := startDeadline_spec (p.track input) input.now
  obtain ⟨q, passed, rest, hl, hskips, hpassed, hconfigured, hpending, hready, hwarm, hfst,
    hbegin⟩ := startLoop_some h
  have hstill : ∀ j, ((p.track input).motors j).state ≠ .running := by
    rw [← hdmotors]
    exact anyRunning_eq_false.mp (Bool.eq_false_iff.mpr hrunning)
  -- A motor found pending after tracking and skips was so before the tick.
  have hbefore : q.motors action.motorId = p.motors action.motorId := by
    rcases hskips.motors action.motorId with heq | ⟨-, -, -, heq⟩
    · rw [heq, hdmotors] at hpending ⊢
      rcases hmotors action.motorId with htrack | ⟨-, htrack | htrack⟩
      · exact htrack
      all_goals
        rw [htrack] at hpending
        cases hpending
    · rw [heq] at hpending
      cases hpending
  rw [hbefore] at hconfigured hpending
  rw [hfst]
  refine ⟨hwindow, harmed, hconfigured, hpending, ?_, hready, hstill, fun j hj => ?_, ?_, rfl⟩
  · rw [← hbefore]
    exact hbegin
  · have hne : j ≠ action.motorId := fun heq => absurd hj (heq ▸ Fin.lt_irrefl _)
    have hkept : (q.begin action.motorId).1.motors j = q.motors j :=
      (setMotorState_motors q action.motorId .running j).trans (if_neg hne)
    rw [hkept]
    refine ⟨?_, hpassed j (mem_passed_of_lt hl hj)⟩
    rcases hskips.motors j with heq | ⟨-, -, -, heq⟩
    · rw [heq, hdmotors]
      exact hstill j
    · rw [heq]
      nofun
  · rw [hdstarted, Bool.true_and, hdcfg, hcfg, hdstart] at hwarm
    rw [deadlineFrom, ← hstarted, ← hstart]
    exact hwarm

/-- A motor whose bend the search starts when it comes to it. -/
def Fit (p : FallbackPlanner n) (input : FallbackTickInput) (deadlinePassed : Bool) (i : Fin n) : Prop :=
  (p.motors i).configured = true ∧ (p.motors i).state = .pending ∧ (input.motor i).ready = true ∧
    ((input.motor i).windowOk p.cfg = true ∨ deadlinePassed = true)

end FallbackPlanner

end Coatheal.Fallback
