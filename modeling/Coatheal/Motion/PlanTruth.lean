import Coatheal.Fallback.Settling
import Coatheal.Motion.BendWatch
import Coatheal.Motion.TravelLimit

/-!
# What a done bend of the plan tells

The plan takes a bend for done when its motor neither moves nor holds and no
safety abort ended its last motion. An onlooker follows every bend from the tick
that started it, through commands, sequences, faults and restarts. The plan tells
the truth in every run in which nothing but such an abort takes a bend out of
hand and no restart finds a bend in the plan file that was not held out.
-/

namespace Coatheal.Motion

open Coatheal.Library Coatheal.Fallback

variable {n : ℕ} {δ : Type*}

namespace Deck

/-- The plan is told of every motor. -/
theorem planTickInput_motor (hal : StepperDriver ℚ δ) (d : Deck n δ) (phase : MissionPhase) (now : ℤ)
    (groupTempC : Fin n → Option ℚ) (motor : Fin n) :
    (d.planTickInput hal phase now groupTempC).motor motor = d.planInput hal groupTempC motor := by
  unfold planTickInput FallbackTickInput.motor
  simp

/-- A command leaves the bends of the plan as they are, or puts them back, and keeps the plan proper. -/
theorem record_planner (platform : Platform ℚ δ) (d : Deck n δ) (command : MotionCommand n)
    (hproper : d.planner.Proper) :
    (d.record platform command).planner.Proper ∧ d.planner.Recedes (d.record platform command).planner := by
  have hsame : d.planner.Proper ∧ d.planner.Recedes d.planner := ⟨hproper, fun _ => Or.inl rfl⟩
  cases command with
  | bendSeqClear motor name =>
    cases name with
    | none => exact hsame
    | some name => exact hsame
  | fallbackPlan motor target hold speed =>
    unfold record
    dsimp only
    split
    case h_1 planner hloaded => exact ⟨hproper.setMotorPlan hloaded, FallbackPlanner.recedes_setMotorPlan hloaded⟩
    · exact hsame
  | fallbackArm =>
    unfold record
    dsimp only
    split
    case h_1 planner harmed =>
      refine ⟨hproper.arm harmed, ?_⟩
      obtain ⟨-, -, rfl⟩ := FallbackPlanner.arm_ok harmed
      exact fun _ => Or.inl rfl
    · exact hsame
  | fallbackDisarm => exact ⟨hproper.disarm, FallbackPlanner.recedes_resetToNone d.planner⟩
  | _ => exact hsame

/-- An event other than a tick of the plan leaves its bends as they are, or puts them back. -/
theorem step_planner (platform : Platform ℚ δ) (d : Deck n δ) {event : DeckEvent n δ}
    (htick : ∀ phase now groupTempC, event ≠ .planTick phase now groupTempC) (hproper : d.planner.Proper) :
    (d.step platform event).planner.Proper ∧ d.planner.Recedes (d.step platform event).planner := by
  have hsame : d.planner.Proper ∧ d.planner.Recedes d.planner := ⟨hproper, fun _ => Or.inl rfl⟩
  cases event with
  | command command =>
    by_cases hcheck : (d.check platform command).isOk = true
    · rw [step_command_ok hcheck]
      exact record_planner platform d command hproper
    · rw [step_command_error hcheck]
      exact hsame
  | startTick linkLost =>
    dsimp only [step, startTick]
    split
    · exact hsame
    · exact hsame
  | planTick phase now groupTempC => exact absurd rfl (htick phase now groupTempC)
  | sequenceTick motor =>
    dsimp only [step, tickBendSequence]
    split
    · exact hsame
    · unfold startStep
      split
      · exact hsame
      · exact hsame
  | channelTick motor dt now => exact hsame
  | faultTick motor overtemp =>
    dsimp only [step, pauseOnFault]
    split
    · exact hsame
    · exact hsame
  | pulse motor elapsed => exact hsame
  | driverChange motor after => exact hsame

/-- A tick of the plan that starts no bend leaves the planner as the tick left it. -/
theorem tickFallbackPlan_none {platform : Platform ℚ δ} {d : Deck n δ} {phase : MissionPhase} {now : ℤ}
    {groupTempC : Fin n → Option ℚ} (h : (d.planAction platform.hal phase now groupTempC).2 = none) :
    (d.tickFallbackPlan platform phase now groupTempC).planner =
      (d.planAction platform.hal phase now groupTempC).1 := by
  unfold tickFallbackPlan
  dsimp only
  rw [h]
  dsimp only
  split
  · rfl
  · rfl

/-- A tick of the plan that starts a bend does nothing else: it is not the phase of the landed safing. -/
theorem tickFallbackPlan_some {platform : Platform ℚ δ} {d : Deck n δ} {phase : MissionPhase} {now : ℤ}
    {groupTempC : Fin n → Option ℚ} {action : FallbackAction n}
    (h : (d.planAction platform.hal phase now groupTempC).2 = some action) :
    d.tickFallbackPlan platform phase now groupTempC =
      { d with planner := (d.planAction platform.hal phase now groupTempC).1 }.startBend action := by
  have hwindow := (FallbackPlanner.tick_startable h).window
  have hphase : phase ≠ .landed := by
    rintro rfl
    simp [FallbackTickInput.windowPhase, planTickInput] at hwindow
  unfold tickFallbackPlan
  dsimp only
  rw [h, if_neg fun hsafing => hphase hsafing.2.1]

/-- The answer to a start keeps the plan proper, and only an accepted bend runs. -/
theorem tickFallbackPlan_planner (platform : Platform ℚ δ) (d : Deck n δ) (phase : MissionPhase) (now : ℤ)
    (groupTempC : Fin n → Option ℚ) (hproper : d.planner.Proper) :
    (d.tickFallbackPlan platform phase now groupTempC).planner.Proper ∧
      (d.planAction platform.hal phase now groupTempC).1.Recedes
        (d.tickFallbackPlan platform phase now groupTempC).planner := by
  have hticked : (d.planAction platform.hal phase now groupTempC).1.Proper := hproper.tick _
  cases haction : (d.planAction platform.hal phase now groupTempC).2 with
  | none =>
    rw [tickFallbackPlan_none haction]
    exact ⟨hticked, fun _ => Or.inl rfl⟩
  | some action =>
    rw [tickFallbackPlan_some haction]
    have hconfigured : ((d.planAction platform.hal phase now groupTempC).1.motors action.motorId).configured =
        true :=
      (FallbackPlanner.tick_configured d.planner _ action.motorId).trans
        (FallbackPlanner.tick_startable haction).configured
    exact ⟨hticked.reportStartResult hconfigured _ _ _,
      (FallbackPlanner.recedes_reportStartResult _ action.motorId _ _ _).1⟩

end Deck

/-- The bend that is followed is the one of a plan. -/
def StepWatch.Serves (w : StepWatch) (plan : FallbackMotorPlan) : Prop :=
  w.target = plan.targetUsteps.toInt ∧ plan.holdS ≤ w.hold

/-- Whether a bend is the one of a plan can be decided. -/
instance (w : StepWatch) (plan : FallbackMotorPlan) : Decidable (w.Serves plan) :=
  inferInstanceAs (Decidable (_ ∧ _))

/-- A bend that is followed is finished when its motor rests and no safety abort tells why. -/
theorem StepWatch.finished_of_rests {w : StepWatch} {c : StepperChannel ℚ δ} (h : w.Followed c)
    (hrests : (c.moving || decide (c.mode = .holding)) = false) (haborted : endedBySafetyAbort c = false) :
    w.finished = true := by
  obtain ⟨-, hfinished | hinHand⟩ := h
  · exact hfinished
  obtain ⟨hstill, hnotHolding⟩ := Bool.or_eq_false_iff.mp hrests
  unfold InHand at hinHand
  cases hmode : c.mode with
  | idle =>
    rw [hmode] at hinHand
    exact absurd (haborted.symm.trans hinHand) Bool.false_ne_true
  | moving =>
    rw [hmode] at hinHand
    exact absurd (hstill.symm.trans hinHand.1) Bool.false_ne_true
  | retracting =>
    rw [hmode] at hinHand
    exact hinHand.elim
  | holding => exact absurd hmode (of_decide_eq_false hnotHolding)

/-- The deck, the bends of the plan that the onlooker follows, and whether every bend that became done had
been held out. -/
structure PlanRun (n : ℕ) (δ : Type*) where
  deck : Deck n δ
  watches : Fin n → Option StepWatch
  truthful : Bool

/-- An event of the deck, or a restart that reads the plan file, whatever it holds by then. -/
inductive PlanRunEvent (n : ℕ) (δ : Type*) where
  | deck (event : DeckEvent n δ)
  | restart (channel : Fin n → ChannelConfig ℚ) (driver : Fin n → Option δ) (file : Option (List Char))

namespace PlanRun

/-- The rig and the bends in progress. -/
def watched (s : PlanRun n δ) : Watched (Fin n) δ := ⟨s.watches, s.deck.rig⟩

/-- The bend of a plan was seen at its end: the motor was at the target and held there for the hold. -/
def HeldOut (s : PlanRun n δ) (motor : Fin n) (plan : FallbackMotorPlan) : Prop :=
  ∃ w ∈ s.watches motor, w.finished = true ∧ w.Serves plan

/-- Whether a bend was held out is on record. -/
instance (s : PlanRun n δ) (motor : Fin n) (plan : FallbackMotorPlan) : Decidable (s.HeldOut motor plan) :=
  inferInstanceAs (Decidable (∃ w ∈ s.watches motor, _ ∧ _))

/-- Every bend that becomes done was held out. -/
def Earns (s : PlanRun n δ) (after : FallbackPlanner n) : Prop :=
  ∀ motor, (after.motors motor).state = .done →
    (s.deck.planner.motors motor).state = .done ∨ s.HeldOut motor (after.motors motor)

/-- Whether the bends were held out can be decided. -/
instance (s : PlanRun n δ) (after : FallbackPlanner n) : Decidable (s.Earns after) :=
  inferInstanceAs (Decidable (∀ _, _ → _))

/-- The planner after a restart. -/
def reread (d : Deck n δ) (file : Option (List Char)) : FallbackPlanner n :=
  (FallbackPlanner.new d.planner.cfg d.planner.addressable).loadFrom file

/-- The deck after an event. -/
def deckAfter (platform : Platform ℚ δ) (d : Deck n δ) : PlanRunEvent n δ → Deck n δ
  | .deck event => d.step platform event
  | .restart channel driver file => .start platform d.cfg channel driver (reread d file)

/-- The bend that an event started. -/
def started (platform : Platform ℚ δ) (d : Deck n δ) : DeckEvent n δ → Option (FallbackAction n)
  | .planTick phase now groupTempC =>
    (d.planAction platform.hal phase now groupTempC).2.filter fun action =>
      ((d.tickFallbackPlan platform phase now groupTempC).planner.motors action.motorId).state = .running
  | _ => none

/-- What the onlooker knows of a motor's bend after an event. A bend that is started is followed anew; at a
restart the time of a hold counts from nothing. -/
def noted (platform : Platform ℚ δ) (s : PlanRun n δ) (motor : Fin n) : PlanRunEvent n δ → Option StepWatch
  | .deck event =>
    match (started platform s.deck event).filter fun action => action.motorId = motor with
    | some action =>
      some (.fresh ⟨action.targetUsteps, action.holdS, none⟩ ((s.deck.step platform event).rig.channels motor))
    | none => (run (Watched.step platform) s.watched (s.deck.motionOperations platform event)).watches motor
  | .restart _ _ _ => (s.watches motor).map fun w => { w with held := 0 }

/-- One event, seen by the onlooker. -/
def step (platform : Platform ℚ δ) (s : PlanRun n δ) (event : PlanRunEvent n δ) : PlanRun n δ where
  deck := deckAfter platform s.deck event
  watches motor := s.noted platform motor event
  truthful := s.truthful && decide (s.Earns (deckAfter platform s.deck event).planner)

/-- The first start, without a plan file. -/
def start (platform : Platform ℚ δ) (cfg : DeckConfig) (channel : Fin n → ChannelConfig ℚ)
    (driver : Fin n → Option δ) (planner : FallbackPlannerConfig) (addressable : n ≤ 2 ^ 63) : PlanRun n δ where
  deck := .start platform cfg channel driver ((FallbackPlanner.new planner addressable).loadFrom none)
  watches _ := none
  truthful := true

/-- Every bend that became done had been held out. -/
def Truthful (s : PlanRun n δ) : Prop := s.truthful = true

/-- The bend of a motor is under way when the operations of an event come. A tick of the plan settles the
bend of a motor at rest before that. -/
def Bending (d : Deck n δ) (event : DeckEvent n δ) (motor : Fin n) : Prop :=
  match event with
  | .planTick _ _ _ => (d.planner.motors motor).state = .running ∧ d.busy motor = true
  | _ => (d.planner.motors motor).state = .running

/-- Whether a bend is under way can be decided. -/
instance (d : Deck n δ) (event : DeckEvent n δ) : DecidablePred (Bending d event) := fun motor => by
  cases event with
  | planTick phase now groupTempC => exact inferInstanceAs (Decidable (_ ∧ _))
  | _ => exact inferInstanceAs (Decidable (_ = _))

/-- No operation of the event interrupts an unfinished bend of the plan, and no restart finds a bend in the
plan file as running, or anew as done, that was not held out. -/
def LeftAlone (platform : Platform ℚ δ) (s : PlanRun n δ) : PlanRunEvent n δ → Prop
  | .deck event =>
    Meets (Watched.step platform) (Watched.LeftAlone platform (Bending s.deck event)) s.watched
      (s.deck.motionOperations platform event)
  | .restart _ _ file =>
    ∀ motor, ((reread s.deck file).motors motor).state = .running ∨
        ((reread s.deck file).motors motor).state = .done ∧ (s.deck.planner.motors motor).state ≠ .done →
      s.HeldOut motor ((reread s.deck file).motors motor)

/-- Whether an event leaves the bends alone can be decided. -/
instance (platform : Platform ℚ δ) (s : PlanRun n δ) :
    (event : PlanRunEvent n δ) → Decidable (s.LeftAlone platform event)
  | .deck _ => inferInstanceAs (Decidable (Meets _ _ _ _))
  | .restart _ _ _ => inferInstanceAs (Decidable (∀ _, _ → _))

/-- The plan tells the truth and is proper, and the onlooker follows every bend that runs. -/
structure Inv (s : PlanRun n δ) : Prop where
  truthful : s.truthful = true
  proper : s.deck.planner.Proper
  running : ∀ motor, (s.deck.planner.motors motor).state = .running →
    ∃ w, s.watches motor = some w ∧ w.Serves (s.deck.planner.motors motor) ∧
      w.Followed (s.deck.rig.channels motor)

/-- The record stays true when every bend that becomes done was held out. -/
theorem truthful_step {platform : Platform ℚ δ} {s : PlanRun n δ} {event : PlanRunEvent n δ}
    (h : s.truthful = true) (hearns : s.Earns (deckAfter platform s.deck event).planner) :
    (s.step platform event).truthful = true := by
  unfold step
  dsimp only
  rw [h, decide_eq_true hearns]
  rfl

/-- A bend that the motor accepted is followed from the start. -/
theorem startBend_followed {d : Deck n δ} {action : FallbackAction n}
    (h : ((d.startBend action).planner.motors action.motorId).state = .running) :
    (StepWatch.fresh ⟨action.targetUsteps, action.holdS, none⟩
      ((d.startBend action).rig.channels action.motorId)).Followed
        ((d.startBend action).rig.channels action.motorId) := by
  unfold Deck.startBend at h ⊢
  cases hsend : Deck.sendTo action.motorId (d.rig.locked action.motorId)
    (if 0 < action.speedHz then some action.speedHz else none) action.targetUsteps action.holdS with
  | mk reply after =>
    simp only [hsend] at h ⊢
    cases reply with
    | error text => exact absurd h ((FallbackPlanner.recedes_reportStartResult _ _ _ _ _).2 rfl)
    | ok done =>
      obtain ⟨s', hmove⟩ := Followed.sendTo_ok hsend
      simp only [Deck.setChannel, Function.update_self]
      have hresult := Locked.moveToSteps_result
        (w := StepWatch.fresh ⟨action.targetUsteps, action.holdS, none⟩ after.channel) action.motorId s'
        action.targetUsteps.toInt action.holdS le_rfl
      rw [hmove] at hresult
      rcases hresult with ⟨hrefused, -⟩ | ⟨-, hsent⟩
      · cases hrefused
      · refine ⟨le_rfl, (hsent rfl le_rfl).imp (fun hdone => ?_) And.left⟩
        exact decide_eq_true hdone

/-- A motor whose bend did not start at an event has its watch from the operations. -/
theorem noted_deck {platform : Platform ℚ δ} {s : PlanRun n δ} {event : DeckEvent n δ} {motor : Fin n}
    (h : ∀ action, started platform s.deck event = some action → action.motorId ≠ motor) :
    s.noted platform motor (.deck event) =
      (run (Watched.step platform) s.watched (s.deck.motionOperations platform event)).watches motor := by
  have hnone : ((started platform s.deck event).filter fun action => action.motorId = motor) = none := by
    rw [Option.filter_eq_none_iff]
    intro action haction hmotor
    exact h action haction (of_decide_eq_true hmotor)
  unfold noted
  dsimp only
  rw [hnone]

/-- A bend that is left alone and goes on running is followed on. -/
theorem followed_deck {platform : Platform ℚ δ} {s : PlanRun n δ} {event : DeckEvent n δ} (h : s.Inv)
    (hok : s.LeftAlone platform (.deck event)) {motor : Fin n} (hbending : Bending s.deck event motor)
    (hrunning : (s.deck.planner.motors motor).state = .running) :
    ∃ w, (run (Watched.step platform) s.watched (s.deck.motionOperations platform event)).watches motor = some w ∧
      w.Serves (s.deck.planner.motors motor) ∧ w.Followed ((s.deck.step platform event).rig.channels motor) := by
  have hfollowed : s.watched.Followed (Bending s.deck event) := by
    intro other hother w hw
    have hruns : (s.deck.planner.motors other).state = .running := by
      cases event with
      | planTick phase now groupTempC => exact hother.1
      | _ => exact hother
    obtain ⟨watch, hwatch, -, hchannel⟩ := h.running other hruns
    obtain rfl : watch = w := Option.some.inj (hwatch.symm.trans hw)
    exact hchannel
  have hafter := Watched.followed_run platform hfollowed hok
  have hrig : (run (Watched.step platform) s.watched (s.deck.motionOperations platform event)).rig =
      (s.deck.step platform event).rig :=
    (Watched.run_rig platform s.watched _).trans (Deck.step_rig_motion platform s.deck event).symm
  obtain ⟨w, hw, hserves, -⟩ := h.running motor hrunning
  have hkept := Watched.run_kept platform (f := fun w : StepWatch => (w.target, w.hold))
    (fun w operation c after => by
      unfold StepWatch.seenBy
      split
      · rfl
      · rfl) s.watched (s.deck.motionOperations platform event) motor
  have hwatched : s.watched.watches motor = some w := hw
  rw [hwatched] at hkept
  obtain ⟨w', hw', hsame⟩ := Option.map_eq_some_iff.mp hkept
  have htarget : w'.target = w.target := congrArg Prod.fst hsame
  have hhold : w'.hold = w.hold := congrArg Prod.snd hsame
  refine ⟨w', hw', ⟨htarget.trans hserves.1, hhold ▸ hserves.2⟩, ?_⟩
  rw [← hrig]
  exact hafter motor hbending w' hw'

/-- An event that is no tick of the plan makes no bend run or done. -/
theorem inv_event (platform : Platform ℚ δ) {s : PlanRun n δ} {event : DeckEvent n δ} (h : s.Inv)
    (hok : s.LeftAlone platform (.deck event))
    (htick : ∀ phase now groupTempC, event ≠ .planTick phase now groupTempC) :
    (s.step platform (.deck event)).Inv := by
  obtain ⟨hproper, hrecedes⟩ := Deck.step_planner platform s.deck htick h.proper
  have hstarted : started platform s.deck event = none := by
    cases event with
    | planTick phase now groupTempC => exact absurd rfl (htick phase now groupTempC)
    | _ => rfl
  have hbending (motor : Fin n) (hrunning : (s.deck.planner.motors motor).state = .running) :
      Bending s.deck event motor := by
    cases event with
    | planTick phase now groupTempC => exact absurd rfl (htick phase now groupTempC)
    | _ => exact hrunning
  refine ⟨?_, hproper, fun motor hrunning => ?_⟩
  · have hearns : s.Earns (s.deck.step platform event).planner := by
      intro motor hdone
      rcases hrecedes motor with heq | ⟨-, hno⟩
      · exact Or.inl (heq ▸ hdone)
      · exact absurd hdone hno
    exact truthful_step h.truthful hearns
  · have hsame : (s.deck.step platform event).planner.motors motor = s.deck.planner.motors motor := by
      rcases hrecedes motor with heq | ⟨hno, -⟩
      · exact heq
      · exact absurd hrunning hno
    dsimp only [step, deckAfter] at hrunning ⊢
    rw [noted_deck fun action haction => by rw [hstarted] at haction; cases haction]
    rw [hsame] at hrunning ⊢
    exact followed_deck h hok (hbending motor hrunning) hrunning

/-- A bend becomes done at a tick of the plan only when it was held out. -/
theorem earns_planTick (platform : Platform ℚ δ) {s : PlanRun n δ} (h : s.Inv) (phase : MissionPhase) (now : ℤ)
    (groupTempC : Fin n → Option ℚ) :
    s.Earns (s.deck.tickFallbackPlan platform phase now groupTempC).planner := by
  intro motor hdone
  rcases (Deck.tickFallbackPlan_planner platform s.deck phase now groupTempC h.proper).2 motor with
    heq | ⟨-, hno⟩
  · rw [heq] at hdone ⊢
    rcases FallbackPlanner.tick_done h.proper.counts hdone with hsame | ⟨hrunning, hset, hrests, haborted⟩
    · exact Or.inl (hsame ▸ hdone)
    · rw [Deck.planTickInput_motor] at hrests haborted
      obtain ⟨w, hw, hserves, hfollowed⟩ := h.running motor hrunning
      refine Or.inr ⟨w, hw, StepWatch.finished_of_rests hfollowed hrests haborted, ?_⟩
      have hserves : w.Serves { s.deck.planner.motors motor with state := .done } := hserves
      rw [← hset] at hserves
      exact hserves
  · exact absurd hdone hno

/-- A tick of the plan that leaves the bends alone keeps the onlooker in the picture. -/
theorem inv_planTick (platform : Platform ℚ δ) {s : PlanRun n δ} (h : s.Inv) {phase : MissionPhase} {now : ℤ}
    {groupTempC : Fin n → Option ℚ} (hok : s.LeftAlone platform (.deck (.planTick phase now groupTempC))) :
    (s.step platform (.deck (.planTick phase now groupTempC))).Inv := by
  have hearns := earns_planTick platform h phase now groupTempC
  obtain ⟨hproper, hrecedes⟩ :=
    Deck.tickFallbackPlan_planner platform s.deck phase now groupTempC h.proper
  refine ⟨truthful_step h.truthful hearns, hproper, fun motor hrunning => ?_⟩
  dsimp only [step, deckAfter, Deck.step] at hrunning ⊢
  have hticked : (s.deck.tickFallbackPlan platform phase now groupTempC).planner.motors motor =
      (s.deck.planAction platform.hal phase now groupTempC).1.motors motor := by
    rcases hrecedes motor with heq | ⟨hno, -⟩
    · exact heq
    · exact absurd hrunning hno
  have hruns := hrunning
  rw [hticked] at hruns
  rcases FallbackPlanner.tick_running h.proper.counts hruns with
    ⟨action, haction, rfl, hbend, hplan⟩ | ⟨hsame, hbusy⟩
  · have haction : (s.deck.planAction platform.hal phase now groupTempC).2 = some action := haction
    have hstart : started platform s.deck (.planTick phase now groupTempC) = some action := by
      unfold started
      dsimp only
      rw [haction, Option.filter_some, if_pos (decide_eq_true hrunning)]
    have hnoted : s.noted platform action.motorId (.deck (.planTick phase now groupTempC)) =
        some (.fresh ⟨action.targetUsteps, action.holdS, none⟩
          ((s.deck.tickFallbackPlan platform phase now groupTempC).rig.channels action.motorId)) := by
      unfold noted
      dsimp only
      rw [hstart, Option.filter_some, if_pos (decide_eq_true rfl)]
      rfl
    refine ⟨_, hnoted, ?_, ?_⟩
    · rw [hticked]
      have hplan : (s.deck.planAction platform.hal phase now groupTempC).1.motors action.motorId = _ := hplan
      rw [hplan]
      unfold StepWatch.Serves StepWatch.fresh
      dsimp only
      rw [hbend]
      exact ⟨rfl, le_rfl⟩
    · rw [Deck.tickFallbackPlan_some haction] at hrunning ⊢
      exact startBend_followed hrunning
  · rw [Deck.planTickInput_motor] at hbusy
    have hbefore : (s.deck.planner.motors motor).state = .running := hsame ▸ hruns
    have hother (action : FallbackAction n)
        (haction : started platform s.deck (.planTick phase now groupTempC) = some action) :
        action.motorId ≠ motor := by
      rintro rfl
      have haction : (s.deck.planAction platform.hal phase now groupTempC).2 = some action :=
        (Option.filter_eq_some_iff.mp haction).1
      exact absurd ((FallbackPlanner.tick_startable haction).pending.symm.trans hbefore) (by decide)
    rw [noted_deck hother, hticked]
    have hsame : (s.deck.planAction platform.hal phase now groupTempC).1.motors motor = _ := hsame
    rw [hsame]
    exact followed_deck h hok ⟨hbefore, hbusy⟩ hbefore

/-- A restart that finds no other bends in the plan file than were held out keeps the onlooker in the
picture. -/
theorem inv_restart (platform : Platform ℚ δ) {s : PlanRun n δ} (h : s.Inv) {channel : Fin n → ChannelConfig ℚ}
    {driver : Fin n → Option δ} {file : Option (List Char)}
    (hok : s.LeftAlone platform (.restart channel driver file)) :
    (s.step platform (.restart channel driver file)).Inv := by
  refine ⟨?_, FallbackPlanner.Proper.loadFrom _ file, fun motor hrunning => ?_⟩
  · have hearns : s.Earns (reread s.deck file) := by
      intro motor hdone
      by_cases hbefore : (s.deck.planner.motors motor).state = .done
      · exact Or.inl hbefore
      · exact Or.inr (hok motor (Or.inr ⟨hdone, hbefore⟩))
    exact truthful_step h.truthful hearns
  · obtain ⟨w, hw, hfinished, hserves⟩ := hok motor (Or.inl hrunning)
    refine ⟨{ w with held := 0 }, ?_, hserves, le_rfl, Or.inl hfinished⟩
    dsimp only [step, noted]
    rw [Option.mem_def.mp hw]
    rfl

/-- An event that leaves the bends alone keeps the onlooker in the picture. -/
theorem inv_step (platform : Platform ℚ δ) (s : PlanRun n δ) (event : PlanRunEvent n δ) (h : s.Inv)
    (hok : s.LeftAlone platform event) : (s.step platform event).Inv := by
  cases event with
  | restart channel driver file => exact inv_restart platform h hok
  | deck event =>
    cases event with
    | planTick phase now groupTempC => exact inv_planTick platform h hok
    | _ => exact inv_event platform h hok fun _ _ _ heq => by cases heq

/-- At the first start no bend runs. -/
theorem inv_start (platform : Platform ℚ δ) (cfg : DeckConfig) (channel : Fin n → ChannelConfig ℚ)
    (driver : Fin n → Option δ) (planner : FallbackPlannerConfig) (addressable : n ≤ 2 ^ 63) :
    (start platform cfg channel driver planner addressable).Inv :=
  ⟨rfl, FallbackPlanner.Proper.cleared _, fun _ hrunning => by cases hrunning⟩

/-- In every run in which nothing but a safety abort takes a bend of the plan out of hand, and no restart
finds a bend in the plan file that was not held out, a bend is done only when its motor had reached the
target and held it for the hold. -/
theorem truthful_of_leftAlone (platform : Platform ℚ δ) (cfg : DeckConfig) (channel : Fin n → ChannelConfig ℚ)
    (driver : Fin n → Option δ) (planner : FallbackPlannerConfig) (addressable : n ≤ 2 ^ 63)
    (events : List (PlanRunEvent n δ))
    (h : Meets (step platform) (LeftAlone platform) (start platform cfg channel driver planner addressable)
      events) :
    Holds (step platform) Truthful (start platform cfg channel driver planner addressable) events :=
  holds_of_meets (inv_step platform) (fun _ hinv => hinv.truthful)
    (inv_start platform cfg channel driver planner addressable) h

/-- The first start of the bench. -/
def bench : PlanRun 2 SimulatedStepperDriver :=
  start SimulatedStepperDriver.platform ⟨1000, 200000, 100, 200, 2, true⟩ Rig.benchConfig Rig.benchDriver {}
    Deck.benchAddressable

/-- A tick of the plan in float, with the specimen warm. -/
def inFloat : PlanRunEvent 2 SimulatedStepperDriver := .deck (.planTick .float 0 fun _ => some 20)

/-- The operator plans a bend of the first motor and arms the plan; the link is lost, and the bend begins. -/
def begun : List (PlanRunEvent 2 SimulatedStepperDriver) :=
  [.deck (.command .arm), .deck (.command (.stepperEnable Rig.benchMotor)),
    .deck (.command (.setPositionZero Rig.benchMotor)),
    .deck (.command (.fallbackPlan Rig.benchMotor (some 2) (some 1) none)), .deck (.command .fallbackArm),
    .deck (.startTick true), inFloat]

/-- The bend reaches the target and holds there, and is done. -/
def wholeBend : List (PlanRunEvent 2 SimulatedStepperDriver) :=
  begun ++ [.deck (.channelTick Rig.benchMotor 1 1), .deck (.channelTick Rig.benchMotor 1 1), inFloat]

/-- The bend that is left alone is done when it was held out. -/
theorem truthful_of_leftAlone_wholeBend : Holds (step SimulatedStepperDriver.platform) Truthful bench wholeBend :=
  truthful_of_leftAlone SimulatedStepperDriver.platform _ _ _ _ _ wholeBend (by decide +kernel)

/-- The link comes back while the bend is on its way and is lost again, which stops the motor. -/
def stoppedOnTheWay : List (PlanRunEvent 2 SimulatedStepperDriver) :=
  begun ++ [.deck (.startTick false), .deck (.startTick true), inFloat]

/-- The stop looks like the end of the hold: the bend is done before the motor has moved. -/
theorem stoppedOnTheWay_not_truthful :
    ¬ Holds (step SimulatedStepperDriver.platform) Truthful bench stoppedOnTheWay := by
  intro h
  have hlast : (run (step SimulatedStepperDriver.platform) bench stoppedOnTheWay).truthful = true := h.last
  have hbroken : (run (step SimulatedStepperDriver.platform) bench stoppedOnTheWay).truthful = false := by
    decide +kernel
  exact absurd (hbroken.symm.trans hlast) Bool.false_ne_true

end PlanRun

end Coatheal.Motion
