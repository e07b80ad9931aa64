import Coatheal.Fallback.Decision
import Coatheal.Motion.SequenceOrder
import Coatheal.Motion.Travel

/-!
# The travel limit of the deck

Every target comes from an operand of a command, from a loaded sequence, from the
plan or from a change of the count. The smallest 64-bit integer passes every check
of a magnitude, because its own magnitude does not fit; a change of the divisor is
checked nowhere. Apart from these, from revolutions without a 64-bit number of
microsteps and from limits of `2 ^ 62` on, no target ever leaves the limit and no
sum overflows.
-/

namespace Coatheal.Motion

open Coatheal.Library Coatheal.Fallback

variable {n : ℕ} {δ : Type*}

/-- Every 64-bit integer but the smallest has a magnitude. -/
theorem fits_toInt {x : Int64} (h : x ≠ Int64.minValue) : Fits x.toInt := by
  unfold Fits
  have hlow := Int64.le_toInt x
  have hhigh := Int64.toInt_lt x
  have hne : x.toInt ≠ -2 ^ 63 := by
    intro hmin
    exact h (Int64.toInt_inj.mp (hmin.trans Int64.toInt_minValue.symm))
  exact abs_lt.mpr ⟨by omega, by omega⟩

/-- An operand that passes the check of its magnitude is within the cap, unless it is the smallest
one. -/
theorem abs_toInt_le {x : Int64} {cap : ℤ} (h : x ≠ Int64.minValue) (hcheck : ¬ abs64 x.toInt > cap) :
    |x.toInt| ≤ cap := by
  rw [abs64_of_lt (fits_toInt h)] at hcheck
  exact not_lt.mp hcheck

/-- All channels are inside their limits. -/
def Rig.InLimits (limits : Fin n → ℤ) (rig : Rig (Fin n) ℚ δ) : Prop :=
  ∀ motor, InLimit (limits motor) (rig.channels motor)

/-- A run of operations whose operands leave room keeps every channel inside its limit, and all its
arithmetic is exact. -/
theorem Rig.inLimits_run (platform : Platform ℚ δ) {limits : Fin n → ℤ} {rig : Rig (Fin n) ℚ δ}
    {inputs : List (Fin n × Operation ℚ δ)} (h : rig.InLimits limits) (hlimits : ∀ motor, limits motor < 2 ^ 62)
    (hok : Meets (Rig.step platform)
      (fun rig input => input.2.Contained platform (limits input.1) (rig.channels input.1)) rig inputs) :
    (run (Rig.step platform) rig inputs).InLimits limits ∧
      Meets (Rig.step platform) (fun rig input => input.2.Exact platform (rig.channels input.1)) rig inputs := by
  induction inputs generalizing rig with
  | nil => exact ⟨h, trivial⟩
  | cons input rest ih =>
    obtain ⟨hafter, hexact⟩ := Operation.apply_inLimit platform input.1 (rig.locked input.1)
      input.2 (h input.1) (hlimits input.1) hok.1
    have hnext : (Rig.step platform rig input).InLimits limits := by
      intro motor
      by_cases hmotor : motor = input.1
      · subst hmotor
        simpa only [Rig.step, Function.update_self] using hafter
      · simpa only [Rig.step, Function.update_of_ne hmotor] using h motor
    obtain ⟨hrun, hrest⟩ := ih hnext hok.2
    exact ⟨hrun, hexact, hrest⟩

/-- No loaded step has the smallest 64-bit integer as its target. -/
def BendSequenceRuntime.Sane (runtime : BendSequenceRuntime) : Prop :=
  ∀ name steps, runtime.definitions name = some steps → ∀ step ∈ steps, step.targetUsteps ≠ Int64.minValue

/-- The sequences of all motors are sane. -/
def SaneSequences (sequences : Fin n → BendSequenceRuntime) : Prop := ∀ motor, (sequences motor).Sane

/-- The plan has no bend with the smallest 64-bit integer as its target. -/
def SanePlan (planner : FallbackPlanner n) : Prop :=
  ∀ motor, (planner.motors motor).targetUsteps ≠ Int64.minValue

/-- A motor's sequences in another sane state leave all sane. -/
theorem SaneSequences.update {sequences : Fin n → BendSequenceRuntime} (h : SaneSequences sequences)
    {motor : Fin n} {runtime : BendSequenceRuntime} (hruntime : runtime.Sane) :
    SaneSequences (Function.update sequences motor runtime) := by
  intro other
  by_cases hother : other = motor
  · subst hother
    rwa [Function.update_self]
  · rw [Function.update_of_ne hother]
    exact h other

/-- A definition without the smallest target, or the end of one, leaves sequences sane. -/
theorem BendSequenceRuntime.Sane.define {runtime : BendSequenceRuntime} (h : runtime.Sane) {name : String}
    {definition : Option (List BendSequenceStep)}
    (hdefinition : ∀ steps, definition = some steps → ∀ step ∈ steps, step.targetUsteps ≠ Int64.minValue) :
    BendSequenceRuntime.Sane
      { runtime with definitions := Function.update runtime.definitions name definition } := by
  intro other steps hsteps
  dsimp only at hsteps
  by_cases hother : other = name
  · subst hother
    rw [Function.update_self] at hsteps
    exact hdefinition steps hsteps
  · rw [Function.update_of_ne hother] at hsteps
    exact h other steps hsteps

/-- The sequences after a tick decided on a move. -/
def SequenceMove.after : SequenceMove → BendSequenceRuntime
  | .rest after | .send after _ => after

/-- What a sequence does at a tick leaves the definitions alone. -/
theorem nextMove_definitions (r : BendSequenceRuntime) (busy : Bool) (c : StepperChannel ℚ δ) :
    (r.nextMove busy c).after.definitions = r.definitions := by
  unfold BendSequenceRuntime.nextMove
  split
  · rfl
  split
  · rfl
  split
  · rfl
  split
  · split
    · rfl
    split
    · rfl
    dsimp only
    split
    · rfl
    · rfl
  · rfl

/-- The current step of a sane sequence is sane. -/
theorem BendSequenceRuntime.Sane.step {runtime : BendSequenceRuntime} (h : runtime.Sane) {index : ℕ}
    {step : BendSequenceStep} (hstep : runtime.steps[index]? = some step) :
    step.targetUsteps ≠ Int64.minValue := by
  have hmem := List.mem_of_getElem? hstep
  unfold BendSequenceRuntime.steps at hmem
  cases hdefinition : runtime.definitions runtime.activeName with
  | none =>
    rw [hdefinition] at hmem
    cases hmem
  | some steps =>
    rw [hdefinition] at hmem
    exact h _ steps hdefinition step hmem

/-- The target of a step that is loaded is an operand of the command. -/
theorem checkStep_target {shown : ℚ → String} {cfg : DeckConfig} {spec : Option StepSpec}
    {step : BendSequenceStep} (h : checkStep shown cfg spec = .ok step) :
    spec.bind (·.target) = some step.targetUsteps := by
  unfold checkStep at h
  split at h
  · cases h
  case h_2 target hold speed =>
    split at h
    · cases h
    · cases hspeed : checkSpeed cfg ("invalid sequence speed (0 < hz <= " ++ speedCeilingText shown cfg ++ ")")
          speed with
      | error text =>
        rw [hspeed] at h
        cases h
      | ok checked =>
        rw [hspeed] at h
        cases h
        rfl
  · cases h

/-- So are the targets of all steps that are loaded. -/
theorem checkSteps_targets {shown : ℚ → String} {cfg : DeckConfig} {specs : List (Option StepSpec)}
    {steps : List BendSequenceStep} (h : checkSteps shown cfg specs = .ok steps) :
    ∀ step ∈ steps, ∃ spec ∈ specs, spec.bind (·.target) = some step.targetUsteps := by
  induction specs generalizing steps with
  | nil =>
    cases h
    intro step hstep
    cases hstep
  | cons spec rest ih =>
    unfold checkSteps at h
    cases hfirst : checkStep shown cfg spec with
    | error text =>
      rw [hfirst] at h
      cases h
    | ok first =>
      cases hothers : checkSteps shown cfg rest with
      | error text =>
        rw [hfirst, hothers] at h
        cases h
      | ok others =>
        rw [hfirst, hothers] at h
        cases h
        intro step hstep
        rcases List.mem_cons.mp hstep with rfl | hmem
        · exact ⟨spec, List.mem_cons_self, checkStep_target hfirst⟩
        · obtain ⟨other, hother, htarget⟩ := ih hothers step hmem
          exact ⟨other, List.mem_cons_of_mem _ hother, htarget⟩

namespace Deck

/-- The operations of sending a motor somewhere. A speed that is refused ends it. -/
def sendOperations (motor : Fin n) (speed : Option ℚ) (target : Int64) (hold : ℚ) :
    List (Fin n × Operation ℚ δ) :=
  match speed with
  | none => [(motor, .moveToSteps target.toInt hold)]
  | some hz =>
    if hz ≤ 0 then [(motor, .setSpeed hz)]
    else [(motor, .setSpeed hz), (motor, .moveToSteps target.toInt hold)]

/-- All operations of an event, the steps of sequences too. -/
def motionOperations (platform : Platform ℚ δ) (d : Deck n δ) :
    DeckEvent n δ → List (Fin n × Operation ℚ δ)
  | .sequenceTick motor =>
    match (d.sequences motor).nextMove (d.busy motor) (d.rig.channels motor) with
    | .rest _ => []
    | .send _ step => sendOperations motor step.speedHz step.targetUsteps step.holdS
  | event => d.eventOperations platform event

/-- Sending a motor somewhere is its operations. -/
theorem sendTo_rig (platform : Platform ℚ δ) (d : Deck n δ) (motor : Fin n) (speed : Option ℚ)
    (target : Int64) (hold : ℚ) :
    (d.setChannel motor (sendTo motor (d.rig.locked motor) speed target hold).2).rig =
      run (Rig.step platform) d.rig (sendOperations motor speed target hold) := by
  unfold sendTo sendOperations
  cases speed with
  | none => rfl
  | some hz =>
    by_cases hspeed : hz ≤ 0
    · simp [StepperChannel.setSpeed, hspeed, setChannel, Rig.step, Rig.locked, Operation.apply]
    · simp [StepperChannel.setSpeed, hspeed, setChannel, Rig.step, Rig.locked, Operation.apply]

/-- Every event does its operations to the rig and nothing else. -/
theorem step_rig_motion (platform : Platform ℚ δ) (d : Deck n δ) (event : DeckEvent n δ) :
    (d.step platform event).rig = run (Rig.step platform) d.rig (d.motionOperations platform event) := by
  by_cases htick : ∃ motor, event = .sequenceTick motor
  · obtain ⟨motor, rfl⟩ := htick
    dsimp only [step, tickBendSequence, motionOperations]
    cases (d.sequences motor).nextMove (d.busy motor) (d.rig.channels motor) with
    | rest runtime => rfl
    | send runtime step =>
      have hsend := sendTo_rig platform d motor step.speedHz step.targetUsteps step.holdS
      dsimp only [startStep]
      split
      case h_1 after hreply =>
        rw [hreply] at hsend
        exact hsend
      case h_2 text after hreply =>
        rw [hreply] at hsend
        exact hsend
  · have hother : ∀ motor, event ≠ .sequenceTick motor := fun motor heq => htick ⟨motor, heq⟩
    rw [step_rig platform d event hother]
    cases event with
    | sequenceTick motor => exact absurd rfl (hother motor)
    | _ => rfl

end Deck

/-- Answering a bend keeps every target. -/
theorem reportStartResult_targets (p : FallbackPlanner n) (motorId : ℤ) (accepted retryLater : Bool)
    (error : String) (motor : Fin n) :
    ((p.reportStartResult motorId accepted retryLater error).motors motor).targetUsteps =
      (p.motors motor).targetUsteps := by
  have hset (i : Fin n) (state : FallbackMotorState) :
      ((p.setMotorState i state).motors motor).targetUsteps = (p.motors motor).targetUsteps := by
    rw [FallbackPlanner.setMotorState_motors]
    split
    case isTrue heq => rw [heq]
    case isFalse => rfl
  unfold FallbackPlanner.reportStartResult
  split
  · rfl
  split
  · rfl
  split
  · exact hset _ _
  · exact hset _ _

/-- A tick of the plan keeps every target, and the bend it starts goes to one of them. -/
theorem tick_targets (p : FallbackPlanner n) (input : FallbackTickInput) :
    (∀ motor, ((p.tick input).1.motors motor).targetUsteps = (p.motors motor).targetUsteps) ∧
      ∀ action, (p.tick input).2 = some action →
        action.targetUsteps = (p.motors action.motorId).targetUsteps := by
  have hticked := FallbackPlanner.tick_spec p input
  refine ⟨fun motor => ?_, fun action haction => ?_⟩
  · by_cases hstarted : ∃ action, (p.tick input).2 = some action ∧ action.motorId = motor
    · obtain ⟨action, haction, rfl⟩ := hstarted
      rw [hticked.started action haction]
    · rcases hticked.motors motor fun action haction heq => hstarted ⟨action, haction, heq⟩ with
        (hsame | ⟨-, hsame | hsame⟩) | ⟨-, -, hsame⟩
      all_goals rw [hsame]
  · rw [(FallbackPlanner.tick_startable haction).bend]

/-- Loading a bend gives its motor the target and keeps the others. -/
theorem setMotorPlan_targets {p q : FallbackPlanner n} {motorId : ℤ} {target : Int64} {hold speed : ℚ}
    (h : p.setMotorPlan motorId target hold speed = .ok q) (motor : Fin n) :
    (q.motors motor).targetUsteps = (p.motors motor).targetUsteps ∨
      (q.motors motor).targetUsteps = target := by
  unfold FallbackPlanner.setMotorPlan at h
  split at h
  · cases h
  case h_2 i hi =>
    split at h
    · cases h
    · dsimp only at h
      cases h
      dsimp only
      by_cases hmotor : motor = i
      · subst hmotor
        exact Or.inr (by rw [Function.update_self])
      · rw [Function.update_of_ne hmotor]
        split
        · exact Or.inl rfl
        · exact Or.inl rfl

/-- Arming keeps every target. -/
theorem arm_targets {p q : FallbackPlanner n} (h : p.arm = .ok q) (motor : Fin n) :
    (q.motors motor).targetUsteps = (p.motors motor).targetUsteps := by
  obtain ⟨-, -, rfl⟩ := FallbackPlanner.arm_ok h
  rfl

/-- The places of a channel leave room for a divisor that it can change to: in proportion to the two
divisors, they are less than half a microstep over the limit. -/
def StepperChannel.Rescalable (hal : StepperDriver ℚ δ) (c : StepperChannel ℚ δ) (divisor : ℤ) : Prop :=
  isSupportedMicrostep divisor = true → (c.driver.all fun d => hal.healthy (hal.setMicrostep d divisor)) = true →
    ∀ place ∈ [c.target, c.position, c.retractTarget],
      2 * |place| * divisor < (2 * c.cfg.maxPositionSteps + 1) * c.microstep

/-- Whether a divisor leaves room can be computed. -/
instance (hal : StepperDriver ℚ δ) (c : StepperChannel ℚ δ) (divisor : ℤ) :
    Decidable (c.Rescalable hal divisor) :=
  inferInstanceAs (Decidable (_ → _ → _))

/-- Places that leave room for a divisor are inside the limit after the change to it. -/
theorem StepperChannel.Rescalable.contained {platform : Platform ℚ δ} {c : StepperChannel ℚ δ} {divisor : ℤ}
    {limit : ℤ} (h : c.Rescalable platform.hal divisor) (hinside : InLimit limit c) :
    (Operation.setMicrostep divisor).Contained platform limit c := by
  intro haccepted
  unfold StepperChannel.setMicrostep at haccepted
  split at haccepted
  · cases haccepted
  case isFalse hsupported =>
    have hdivisor : isSupportedMicrostep divisor = true := by simpa using hsupported
    dsimp only at haccepted
    split at haccepted
    · cases haccepted
    case isFalse hhealthy =>
      have hdriver : (c.driver.all fun d => platform.hal.healthy (platform.hal.setMicrostep d divisor)) = true := by
        cases hd : c.driver with
        | none => rfl
        | some d => simpa [hd] using hhealthy
      have hpositive : (0 : ℚ) < c.microstep := by
        exact_mod_cast isSupportedMicrostep_pos hinside.microstep
      have hplace (place : ℤ) (hmem : place ∈ [c.target, c.position, c.retractTarget])
          (hbefore : |place| ≤ limit) : |c.rescale divisor place| ≤ limit := by
        have hroom := h hdivisor hdriver place hmem
        rw [hinside.maximum] at hroom
        unfold StepperChannel.rescale
        split
        · refine abs_llround_le ?_
          rw [abs_mul, abs_div, abs_of_pos hpositive,
            abs_of_pos (by exact_mod_cast isSupportedMicrostep_pos hdivisor : (0 : ℚ) < divisor), ← mul_div_assoc,
            div_lt_iff₀ hpositive]
          have hroom : (2 * |(place : ℚ)| * divisor) < (2 * limit + 1) * c.microstep := by exact_mod_cast hroom
          linarith
        · exact hbefore
      exact ⟨hplace _ (by simp) hinside.target, hplace _ (by simp) hinside.position,
        hplace _ (by simp) hinside.retractTarget⟩

/-- The operands of a command leave room: none is the smallest 64-bit integer, revolutions have a number
of microsteps that fits, and so has the place they lead to, and the places leave room for a divisor. -/
def MotionCommand.Contained (platform : Platform ℚ δ) (d : Deck n δ) : MotionCommand n → Prop
  | .stepperMove _ steps => steps ≠ some Int64.minValue
  | .stepperMoveTo _ steps _ => steps ≠ some Int64.minValue
  | .fallbackPlan _ target _ _ => target ≠ some Int64.minValue
  | .bendSeqLoad _ _ specs => ∀ spec ∈ specs, spec.bind (·.target) ≠ some Int64.minValue
  | .stepperRotate motor revs => d.mode = .run →
      (Operation.rotate (revs.getD 0)).Contained platform (d.rig.channels motor).cfg.maxPositionSteps
        (d.rig.channels motor)
  | .stepperSetMicrostep motor divisor =>
    (d.rig.channels motor).Rescalable platform.hal (divisor.getD 0)
  | _ => True

/-- The deck and whether all its arithmetic was exact so far. -/
structure Measured (n : ℕ) (δ : Type*) where
  deck : Deck n δ
  exact : Prop

namespace Measured

/-- One event, measured. -/
def step (platform : Platform ℚ δ) (o : Measured n δ) (event : DeckEvent n δ) : Measured n δ where
  deck := o.deck.step platform event
  exact := o.exact ∧ Meets (Rig.step platform)
    (fun rig input => input.2.Exact platform (rig.channels input.1)) o.deck.rig
    (o.deck.motionOperations platform event)

/-- Nothing was computed when the deck starts. -/
def start (d : Deck n δ) : Measured n δ := ⟨d, True⟩

/-- Every target is inside the travel limit, and no sum, difference or conversion has overflowed. -/
def Within (o : Measured n δ) : Prop :=
  (∀ motor, |(o.deck.rig.channels motor).target| ≤ (o.deck.rig.channels motor).cfg.maxPositionSteps) ∧
    o.exact

/-- A command's operands leave room; nothing else has operands. -/
def Contained (platform : Platform ℚ δ) (o : Measured n δ) : DeckEvent n δ → Prop
  | .command command => command.Contained platform o.deck
  | _ => True

/-- Channels, sequences and plan are inside their limits. -/
structure Inv (limits : Fin n → ℤ) (maxDirect : ℤ) (o : Measured n δ) : Prop where
  rig : o.deck.rig.InLimits limits
  direct : o.deck.cfg.maxDirectUsteps = maxDirect
  sequences : SaneSequences o.deck.sequences
  plan : SanePlan o.deck.planner
  exact : o.exact

/-- An operation that leaves room whatever the state of the channel. -/
def Roomy : Operation ℚ δ → Prop
  | .moveToSteps absolute _ => Fits absolute
  | .moveSteps _ | .rotate _ | .setMicrostep _ => False
  | _ => True

/-- A roomy operation leaves room. -/
theorem Roomy.contained {operation : Operation ℚ δ} (h : Roomy operation) (platform : Platform ℚ δ)
    (limit : ℤ) (c : StepperChannel ℚ δ) : operation.Contained platform limit c := by
  cases operation with
  | moveToSteps absolute hold => exact fun _ => h
  | moveSteps delta => exact h.elim
  | rotate revolutions => exact h.elim
  | setMicrostep divisor => exact h.elim
  | _ => trivial

/-- A run of roomy operations leaves room. -/
theorem contained_of_roomy {inputs : List (Fin n × Operation ℚ δ)} (h : ∀ input ∈ inputs, Roomy input.2)
    (platform : Platform ℚ δ) (limits : Fin n → ℤ) (rig : Rig (Fin n) ℚ δ) :
    Meets (Rig.step platform)
      (fun rig input => input.2.Contained platform (limits input.1) (rig.channels input.1)) rig inputs :=
  meets_of_forall (fun input hinput _ => (h input hinput).contained platform _ _) rig

/-- Stopping and switching off motors is roomy. -/
theorem roomy_stop (motors : List (Fin n)) :
    (∀ input ∈ motors.map fun motor => (motor, (.stop : Operation ℚ δ)), Roomy input.2) ∧
      ∀ input ∈ motors.flatMap fun motor => [(motor, (.stop : Operation ℚ δ)), (motor, .setEnabled false)],
        Roomy input.2 := by
  constructor
  · intro input hinput
    obtain ⟨motor, -, rfl⟩ := List.mem_map.mp hinput
    trivial
  · intro input hinput
    obtain ⟨motor, -, hmem⟩ := List.mem_flatMap.mp hinput
    rcases List.mem_cons.mp hmem with rfl | hmem
    · trivial
    · rw [List.mem_singleton.mp hmem]
      trivial

/-- Sending a motor to a place that fits is roomy. -/
theorem roomy_send (motor : Fin n) (speed : Option ℚ) {target : Int64} (hold : ℚ)
    (h : target ≠ Int64.minValue) :
    ∀ input ∈ (Deck.sendOperations motor speed target hold : List (Fin n × Operation ℚ δ)),
      Roomy input.2 := by
  intro input hinput
  unfold Deck.sendOperations at hinput
  split at hinput
  · rw [List.mem_singleton.mp hinput]
    exact fits_toInt h
  split at hinput
  · rw [List.mem_singleton.mp hinput]
    trivial
  · rcases List.mem_cons.mp hinput with rfl | hmem
    · trivial
    · rw [List.mem_singleton.mp hmem]
      exact fits_toInt h

/-- A relative move of a command leaves room. -/
theorem contained_move {platform : Platform ℚ δ} {d : Deck n δ} {motor : Fin n} {steps : Option Int64}
    {limit : ℤ} (h : InLimit limit (d.rig.channels motor)) (hlimit : limit < 2 ^ 62)
    (hdirect : d.cfg.maxDirectUsteps < 2 ^ 62) (hok : steps ≠ some Int64.minValue)
    (hcheck : (d.check platform (.stepperMove motor steps)).isOk = true) :
    Fits ((d.rig.channels motor).target + (steps.getD 0).toInt) := by
  cases steps with
  | none => cases hcheck
  | some v =>
    have hv : v ≠ Int64.minValue := fun hmin => hok (congrArg some hmin)
    have hcap : ¬ abs64 v.toInt > d.cfg.maxDirectUsteps := by
      intro hover
      have hrefused : d.check platform (.stepperMove motor (some v)) =
          .error (directCapText d.cfg "steps") := by
        change ite (abs64 v.toInt > d.cfg.maxDirectUsteps) _ _ = _
        rw [if_pos hover]
        rfl
      rw [hrefused] at hcheck
      cases hcheck
    exact Operation.fits_add hlimit h.target ((abs_toInt_le hv hcap).trans hdirect.le)

/-- A rotation that passes its checks is commanded in RUN. -/
theorem run_of_rotate {platform : Platform ℚ δ} {d : Deck n δ} {motor : Fin n} {revs : Option ℚ}
    (hcheck : (d.check platform (.stepperRotate motor revs)).isOk = true) : d.mode = .run := by
  by_contra hmode
  have hrefused : d.check platform (.stepperRotate motor revs) = .error "RUN mode required" := by
    simp only [Deck.check, Deck.needRun, if_neg hmode]
    rfl
  rw [hrefused] at hcheck
  cases hcheck

/-- The operations of a command whose operands leave room do so. -/
theorem contained_command {platform : Platform ℚ δ} {d : Deck n δ} {limits : Fin n → ℤ}
    {command : MotionCommand n} (h : d.rig.InLimits limits) (hlimits : ∀ motor, limits motor < 2 ^ 62)
    (hdirect : d.cfg.maxDirectUsteps < 2 ^ 62) (hok : command.Contained platform d)
    (hcheck : (d.check platform command).isOk = true) :
    Meets (Rig.step platform)
      (fun rig input => input.2.Contained platform (limits input.1) (rig.channels input.1)) d.rig
      (Deck.operations command) := by
  have hone {motor : Fin n} {operation : Operation ℚ δ} (hroomy : Roomy operation) :
      Meets (Rig.step platform)
        (fun rig input => input.2.Contained platform (limits input.1) (rig.channels input.1)) d.rig
        [(motor, operation)] := ⟨hroomy.contained platform _ _, trivial⟩
  cases command with
  | disarm => exact contained_of_roomy (roomy_stop _).1 platform limits d.rig
  | enterSafe => exact contained_of_roomy (roomy_stop _).1 platform limits d.rig
  | forceStop => exact contained_of_roomy (roomy_stop _).1 platform limits d.rig
  | shutdownSafe => exact contained_of_roomy (roomy_stop _).2 platform limits d.rig
  | setPositionZero motor => exact hone trivial
  | stepLossAck motor => exact hone trivial
  | bendSeqPause motor => exact hone trivial
  | bendSeqStop motor => exact hone trivial
  | stepperStop motor => exact hone trivial
  | stepperMove motor steps =>
    exact ⟨fun _ => contained_move (h motor) (hlimits motor) hdirect hok hcheck, trivial⟩
  | stepperMoveTo motor steps hold =>
    have hfits : Fits (steps.getD 0).toInt := by
      cases steps with
      | none => exact fits_toInt (by decide)
      | some v => exact fits_toInt fun hmin => hok (congrArg some hmin)
    exact hone hfits
  | stepperMoveMm motor mm => exact hone trivial
  | stepperMoveToMm motor mm hold => exact hone trivial
  | stepperRotate motor revs => exact ⟨hok (run_of_rotate hcheck), trivial⟩
  | stepperHome motor => exact hone trivial
  | stepperSetSpeed motor hz => exact hone trivial
  | stepperSetAccel motor accel => exact hone trivial
  | stepperSetCurrent motor aRms => exact hone trivial
  | stepperSetMicrostep motor divisor =>
    have hok : (d.rig.channels motor).Rescalable platform.hal (divisor.getD 0) := hok
    exact ⟨hok.contained (h motor), trivial⟩
  | stepperEnable motor => exact hone trivial
  | stepperDisable motor => exact hone trivial
  | pullArm motor => exact hone trivial
  | pullExecute motor => exact hone trivial
  | _ => trivial

/-- The operations of an event leave room. -/
theorem contained_event {platform : Platform ℚ δ} {o : Measured n δ} {limits : Fin n → ℤ} {maxDirect : ℤ}
    {event : DeckEvent n δ} (h : o.Inv limits maxDirect) (hlimits : ∀ motor, limits motor < 2 ^ 62)
    (hdirect : maxDirect < 2 ^ 62) (hok : o.Contained platform event) :
    Meets (Rig.step platform)
      (fun rig input => input.2.Contained platform (limits input.1) (rig.channels input.1)) o.deck.rig
      (o.deck.motionOperations platform event) := by
  have hnone : Meets (Rig.step platform) (fun rig input => input.2.Contained platform (limits input.1)
      (rig.channels input.1)) o.deck.rig ([] : List (Fin n × Operation ℚ δ)) := trivial
  cases event with
  | command command =>
    dsimp only [Deck.motionOperations, Deck.eventOperations]
    by_cases hcheck : (o.deck.check platform command).isOk = true
    · rw [if_pos hcheck]
      exact contained_command h.rig hlimits (h.direct ▸ hdirect) hok hcheck
    · rw [if_neg hcheck]
      trivial
  | startTick linkLost =>
    dsimp only [Deck.motionOperations, Deck.eventOperations]
    split
    · exact contained_of_roomy (roomy_stop _).1 platform limits _
    · exact hnone
  | planTick phase now groupTempC =>
    dsimp only [Deck.motionOperations, Deck.eventOperations]
    refine contained_of_roomy (fun input hinput => ?_) platform limits _
    rcases List.mem_append.mp hinput with hbend | hsafing
    · cases haction : (o.deck.planAction platform.hal phase now groupTempC).2 with
      | none =>
        rw [haction] at hbend
        cases hbend
      | some action =>
        rw [haction] at hbend
        have htarget : action.targetUsteps ≠ Int64.minValue := by
          rw [(tick_targets o.deck.planner _).2 action haction]
          exact h.plan action.motorId
        rcases List.mem_append.mp hbend with hspeed | hmove
        · split at hspeed
          · rw [List.mem_singleton.mp hspeed]
            trivial
          · cases hspeed
        · rw [List.mem_singleton.mp hmove]
          exact fits_toInt htarget
    · split at hsafing
      · exact (roomy_stop _).2 input hsafing
      · cases hsafing
  | sequenceTick motor =>
    dsimp only [Deck.motionOperations]
    cases hmove : (o.deck.sequences motor).nextMove (o.deck.busy motor) (o.deck.rig.channels motor) with
    | rest runtime => exact hnone
    | send runtime step =>
      have hsame := nextMove_definitions (o.deck.sequences motor) (o.deck.busy motor)
        (o.deck.rig.channels motor)
      rw [hmove] at hsame
      have hsane : runtime.Sane := fun name steps hsteps => h.sequences motor name steps (hsame ▸ hsteps)
      have htarget := hsane.step (Followed.nextMove_send hmove).2.2.2.2.1
      exact contained_of_roomy (roomy_send motor step.speedHz step.holdS htarget) platform limits _
  | channelTick motor dt now => exact ⟨trivial, trivial⟩
  | faultTick motor overtemp =>
    dsimp only [Deck.motionOperations, Deck.eventOperations]
    split
    · exact ⟨trivial, trivial⟩
    · exact hnone
  | pulse motor elapsed => exact ⟨trivial, trivial⟩
  | driverChange motor after => exact ⟨trivial, trivial⟩

/-- What a command records leaves sequences sane whose operands leave room. -/
theorem sequences_record {platform : Platform ℚ δ} {d : Deck n δ} {command : MotionCommand n}
    (h : SaneSequences d.sequences) (hok : command.Contained platform d) :
    SaneSequences (d.record platform command).sequences := by
  cases command with
  | bendSeqLoad motor name specs =>
    refine h.update ((h motor).define fun steps hsteps step hstep => ?_)
    cases hchecked : checkSteps platform.shown d.cfg specs with
    | error text =>
      rw [hchecked] at hsteps
      cases hsteps
    | ok checked =>
      rw [hchecked] at hsteps
      cases hsteps
      obtain ⟨spec, hspec, htarget⟩ := checkSteps_targets hchecked step hstep
      intro hmin
      exact hok spec hspec (htarget.trans (congrArg some hmin))
  | bendSeqRun motor name => exact h.update (h motor)
  | bendSeqPause motor => exact h.update (h motor)
  | bendSeqResume motor => exact h.update (h motor)
  | bendSeqStop motor => exact h.update (h motor)
  | bendSeqClear motor name =>
    cases name with
    | none => exact h.update fun name steps hsteps => nomatch hsteps
    | some name => exact h.update ((h motor).define fun steps hsteps => nomatch hsteps)
  | fallbackPlan motor target hold speed =>
    unfold Deck.record
    dsimp only
    split
    · exact h
    · exact h
  | fallbackArm =>
    unfold Deck.record
    dsimp only
    split
    · exact h
    · exact h
  | _ => exact h

/-- What a command records leaves a plan sane whose operands leave room. -/
theorem plan_record {platform : Platform ℚ δ} {d : Deck n δ} {command : MotionCommand n}
    (h : SanePlan d.planner) (hok : command.Contained platform d) :
    SanePlan (d.record platform command).planner := by
  cases command with
  | bendSeqClear motor name =>
    cases name with
    | none => exact h
    | some name => exact h
  | fallbackPlan motor target hold speed =>
    unfold Deck.record
    dsimp only
    split
    case h_1 planner hplanned =>
      have htarget : target.getD 0 ≠ Int64.minValue := by
        cases target with
        | none => decide
        | some v => exact fun hmin => hok (congrArg some hmin)
      intro other
      rcases setMotorPlan_targets hplanned other with hsame | hset
      · exact fun hmin => h other (hsame ▸ hmin)
      · exact fun hmin => htarget (hset ▸ hmin)
    · exact h
  | fallbackArm =>
    unfold Deck.record
    dsimp only
    split
    case h_1 planner harmed => exact fun motor hmin => h motor (arm_targets harmed motor ▸ hmin)
    · exact h
  | _ => exact h

/-- A tick of the plan keeps it sane. -/
theorem plan_tickFallbackPlan (platform : Platform ℚ δ) {d : Deck n δ} (phase : MissionPhase) (now : ℤ)
    (groupTempC : Fin n → Option ℚ) (h : SanePlan d.planner) :
    SanePlan (d.tickFallbackPlan platform phase now groupTempC).planner := by
  have hticked : SanePlan (d.planAction platform.hal phase now groupTempC).1 :=
    fun motor hmin => h motor ((tick_targets d.planner _).1 motor ▸ hmin)
  unfold Deck.tickFallbackPlan
  dsimp only
  cases (d.planAction platform.hal phase now groupTempC).2 with
  | none =>
    dsimp only
    split
    · exact hticked
    · exact hticked
  | some action =>
    have hstarted : SanePlan (Deck.startBend
        { d with planner := (d.planAction platform.hal phase now groupTempC).1 } action).planner :=
      fun motor hmin => hticked motor (reportStartResult_targets _ _ _ _ _ motor ▸ hmin)
    dsimp only
    split
    · exact hstarted
    · exact hstarted

/-- A tick of a sequence keeps all of them sane. -/
theorem sequences_tickBendSequence {d : Deck n δ} (motor : Fin n) (h : SaneSequences d.sequences) :
    SaneSequences (d.tickBendSequence motor).sequences := by
  have hafter : ((d.sequences motor).nextMove (d.busy motor) (d.rig.channels motor)).after.Sane :=
    fun name steps hsteps => h motor name steps (nextMove_definitions (d.sequences motor) _ _ ▸ hsteps)
  unfold Deck.tickBendSequence
  cases hmove : (d.sequences motor).nextMove (d.busy motor) (d.rig.channels motor) with
  | rest runtime =>
    rw [hmove] at hafter
    exact h.update hafter
  | send runtime step =>
    rw [hmove] at hafter
    have hrefused (text : String) :
        (if Deck.isLockRefusal text then runtime else runtime.pausedFor text).Sane := by
      split
      · exact hafter
      · exact hafter
    unfold Deck.startStep
    dsimp only
    split
    · exact h.update hafter
    case h_2 text refused hreply => exact h.update (hrefused text)

/-- An event leaves the configuration alone. -/
theorem cfg_step (platform : Platform ℚ δ) (d : Deck n δ) (event : DeckEvent n δ) :
    (d.step platform event).cfg = d.cfg := by
  cases event with
  | command command =>
    by_cases hcheck : (d.check platform command).isOk = true
    · rw [Deck.step_command_ok hcheck]
      cases command with
      | bendSeqClear motor name =>
        cases name with
        | none => rfl
        | some name => rfl
      | fallbackPlan motor target hold speed =>
        unfold Deck.record Deck.operate
        dsimp only
        split
        · rfl
        · rfl
      | fallbackArm =>
        unfold Deck.record Deck.operate
        dsimp only
        split
        · rfl
        · rfl
      | _ => rfl
    · rw [Deck.step_command_error hcheck]
  | startTick linkLost =>
    dsimp only [Deck.step, Deck.startTick]
    split
    · rfl
    · rfl
  | planTick phase now groupTempC =>
    dsimp only [Deck.step, Deck.tickFallbackPlan]
    cases (d.planAction platform.hal phase now groupTempC).2 with
    | none =>
      dsimp only
      split
      · rfl
      · rfl
    | some action =>
      dsimp only
      split
      · rfl
      · rfl
  | sequenceTick motor =>
    dsimp only [Deck.step, Deck.tickBendSequence]
    split
    · rfl
    · unfold Deck.startStep
      split
      · rfl
      · rfl
  | faultTick motor overtemp =>
    dsimp only [Deck.step, Deck.pauseOnFault]
    split
    · rfl
    · rfl
  | _ => rfl

/-- An event whose operands leave room keeps sequences and plan sane. -/
theorem sane_step {platform : Platform ℚ δ} {o : Measured n δ} {event : DeckEvent n δ}
    (hsequences : SaneSequences o.deck.sequences) (hplan : SanePlan o.deck.planner)
    (hok : o.Contained platform event) :
    SaneSequences (o.deck.step platform event).sequences ∧ SanePlan (o.deck.step platform event).planner := by
  cases event with
  | command command =>
    by_cases hcheck : (o.deck.check platform command).isOk = true
    · rw [Deck.step_command_ok hcheck]
      exact ⟨sequences_record hsequences hok, plan_record hplan hok⟩
    · rw [Deck.step_command_error hcheck]
      exact ⟨hsequences, hplan⟩
  | startTick linkLost =>
    dsimp only [Deck.step, Deck.startTick]
    split
    · exact ⟨hsequences, hplan⟩
    · exact ⟨hsequences, hplan⟩
  | planTick phase now groupTempC =>
    dsimp only [Deck.step]
    rw [Deck.tickFallbackPlan_sequences]
    exact ⟨hsequences, plan_tickFallbackPlan platform phase now groupTempC hplan⟩
  | sequenceTick motor =>
    have hplanner : (o.deck.tickBendSequence motor).planner = o.deck.planner := by
      unfold Deck.tickBendSequence
      split
      · rfl
      · unfold Deck.startStep
        split
        · rfl
        · rfl
    refine ⟨sequences_tickBendSequence motor hsequences, ?_⟩
    dsimp only [Deck.step]
    rwa [hplanner]
  | faultTick motor overtemp =>
    dsimp only [Deck.step, Deck.pauseOnFault]
    split
    · exact ⟨hsequences.update (hsequences motor), hplan⟩
    · exact ⟨hsequences, hplan⟩
  | channelTick motor dt now => exact ⟨hsequences, hplan⟩
  | pulse motor elapsed => exact ⟨hsequences, hplan⟩
  | driverChange motor after => exact ⟨hsequences, hplan⟩

/-- An event whose operands leave room keeps everything inside its limits. -/
theorem inv_step {platform : Platform ℚ δ} {limits : Fin n → ℤ} {maxDirect : ℤ}
    (hlimits : ∀ motor, limits motor < 2 ^ 62) (hdirect : maxDirect < 2 ^ 62) (o : Measured n δ)
    (event : DeckEvent n δ) (h : o.Inv limits maxDirect) (hok : o.Contained platform event) :
    (o.step platform event).Inv limits maxDirect := by
  obtain ⟨hrig, hexact⟩ := Rig.inLimits_run platform h.rig hlimits
    (contained_event h hlimits hdirect hok)
  obtain ⟨hsequences, hplan⟩ := sane_step h.sequences h.plan hok
  rw [← Deck.step_rig_motion platform o.deck event] at hrig
  exact ⟨hrig, by rw [← h.direct, ← cfg_step platform o.deck event]; rfl, hsequences, hplan, h.exact, hexact⟩

/-- When everything is inside its limits, so is every target. -/
theorem Inv.within {limits : Fin n → ℤ} {maxDirect : ℤ} {o : Measured n δ} (h : o.Inv limits maxDirect) :
    o.Within :=
  ⟨fun motor => by rw [(h.rig motor).maximum]; exact (h.rig motor).target, h.exact⟩

/-- When the deck starts, everything is inside its limits. -/
theorem inv_start (platform : Platform ℚ δ) (cfg : DeckConfig) (channel : Fin n → ChannelConfig ℚ)
    (driver : Fin n → Option δ) (planner : FallbackPlanner n)
    (hlimits : ∀ motor, 0 ≤ (channel motor).maxPositionSteps)
    (hpull : ∀ motor, |(channel motor).pullTravelFullSteps| ≤ 2 ^ 31) (hplan : SanePlan planner) :
    (start (.start platform cfg channel driver planner)).Inv
      (fun motor => (channel motor).maxPositionSteps) cfg.maxDirectUsteps := by
  refine ⟨fun motor => ?_, rfl, fun motor name steps hsteps => ?_, hplan, trivial⟩
  case refine_2 => cases hsteps
  have hsupported :
      isSupportedMicrostep (if isSupportedMicrostep (channel motor).microstep then (channel motor).microstep
        else 4) = true := by
    split
    case isTrue h => exact h
    · decide
  have hzero : |(0 : ℤ)| ≤ (channel motor).maxPositionSteps := by simpa using hlimits motor
  exact ⟨rfl, hpull motor, hsupported, hzero, hzero, hzero⟩

end Measured

end Coatheal.Motion
