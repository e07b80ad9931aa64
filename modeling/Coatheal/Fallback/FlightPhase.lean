import Coatheal.Fallback.LinkLoss
import Coatheal.Library.Trace

/-!
# The tracked flight phase

While link-loss fallback is active each tick gives the pressure to the state
manager, which moves the phase forward after a number of readings past a
threshold. A control reset that was queued reaches the state manager only in such
a tick. A pressure is absent when it is not a number; every comparison with it
fails. The updates are kept, the newest first, for the statements only.
-/

namespace Coatheal.Fallback

open Coatheal.Library

/-- The pressure thresholds, and how many readings a transition takes. -/
structure TransitionConfig (P : Type*) where
  preFloatMbar : P
  ascentToFloatMbar : P
  floatToDescentMbar : P
  descentToLandedMbar : P
  debounceSamples : ℤ
deriving DecidableEq

/-- What commands ask of the state manager. -/
structure StateOverrides where
  forceStart : Bool := false
  forceStop : Bool := false
  resetControl : Bool := false
  shutdownSafe : Bool := false
deriving DecidableEq

/-- The phase with the counters of the readings past a threshold. -/
structure StateManager (P : Type*) where
  config : TransitionConfig P
  phase : MissionPhase
  debouncePreFloat : ℕ
  debounceFloat : ℕ
  debounceDescent : ℕ
  debounceLanded : ℕ
deriving DecidableEq

variable {P : Type*} [LinearOrder P]

/-- A pressure at or below a threshold. -/
def atOrBelow (pressure : Option P) (threshold : P) : Bool := pressure.any fun p => decide (p ≤ threshold)

/-- A pressure at or above a threshold. -/
def atOrAbove (pressure : Option P) (threshold : P) : Bool := pressure.any fun p => decide (threshold ≤ p)

namespace StateManager

/-- The state manager as it is built. -/
def new (config : TransitionConfig P) : StateManager P := ⟨config, .boot, 0, 0, 0, 0⟩

variable (m : StateManager P)

/-- How many readings a transition takes: at least one. -/
def required : ℕ := (max 1 m.config.debounceSamples).toNat

/-- `ResetDebounce`. -/
def resetDebounce : StateManager P :=
  { m with debouncePreFloat := 0, debounceFloat := 0, debounceDescent := 0, debounceLanded := 0 }

/-- `Reset`. -/
def reset : StateManager P := { m with phase := .boot }.resetDebounce

/-- The update in ascent. -/
def updateAscent (pressure : Option P) : StateManager P :=
  if atOrBelow pressure m.config.preFloatMbar then
    if m.debouncePreFloat + 1 ≥ m.required then { m with phase := .preFloat, debouncePreFloat := 0 }
    else { m with debouncePreFloat := m.debouncePreFloat + 1 }
  else { m with debouncePreFloat := 0 }

/-- The update in pre-float: a pressure of the descent leaves the count for float as it is. -/
def updatePreFloat (pressure : Option P) : StateManager P :=
  if atOrAbove pressure m.config.floatToDescentMbar then
    if m.debounceDescent + 1 ≥ m.required then
      { m with phase := .descent, debounceDescent := 0, debounceFloat := 0 }
    else { m with debounceDescent := m.debounceDescent + 1 }
  else if atOrBelow pressure m.config.ascentToFloatMbar then
    if m.debounceFloat + 1 ≥ m.required then
      { m with phase := .float, debounceDescent := 0, debounceFloat := 0 }
    else { m with debounceDescent := 0, debounceFloat := m.debounceFloat + 1 }
  else { m with debounceDescent := 0, debounceFloat := 0 }

/-- The update in float. -/
def updateFloat (pressure : Option P) : StateManager P :=
  if atOrAbove pressure m.config.floatToDescentMbar then
    if m.debounceDescent + 1 ≥ m.required then { m with phase := .descent, debounceDescent := 0 }
    else { m with debounceDescent := m.debounceDescent + 1 }
  else { m with debounceDescent := 0 }

/-- The update in descent. -/
def updateDescent (pressure : Option P) : StateManager P :=
  if atOrAbove pressure m.config.descentToLandedMbar then
    if m.debounceLanded + 1 ≥ m.required then { m with phase := .landed, debounceLanded := 0 }
    else { m with debounceLanded := m.debounceLanded + 1 }
  else { m with debounceLanded := 0 }

/-- The update by the phase. -/
def updatePhase (pressure : Option P) : StateManager P :=
  match m.phase with
  | .boot => { m with phase := .ascent }
  | .ascent => m.updateAscent pressure
  | .preFloat => m.updatePreFloat pressure
  | .float => m.updateFloat pressure
  | .descent => m.updateDescent pressure
  | .landed | .stopped => m

/-- `Update`. -/
def update (pressure : Option P) (overrides : StateOverrides) : StateManager P :=
  let m := if overrides.resetControl then m.reset else m
  if overrides.shutdownSafe then { m with phase := .stopped }
  else if overrides.forceStop then { m with phase := .descent, debouncePreFloat := 0, debounceDescent := 0 }
  else
    let m := if overrides.forceStart ∧ m.phase = .boot then { m with phase := .ascent } else m
    m.updatePhase pressure

end StateManager

/-- An update of a tracked phase: the phase before it, the pressure and the phase after it. -/
structure PhaseUpdate (P : Type*) where
  before : MissionPhase
  pressure : Option P
  after : MissionPhase
deriving DecidableEq

/-- An update whose pressure is one of the descent and none of the float. -/
def StateManager.interrupts (m : StateManager P) (u : PhaseUpdate P) : Bool :=
  atOrAbove u.pressure m.config.floatToDescentMbar && !atOrBelow u.pressure m.config.ascentToFloatMbar

/-- A reading in pre-float that completes the count for float. -/
def StateManager.Completes (m : StateManager P) (pressure : Option P) : Prop :=
  atOrAbove pressure m.config.floatToDescentMbar = false ∧ atOrBelow pressure m.config.ascentToFloatMbar = true ∧
    m.required ≤ m.debounceFloat + 1

/-- Which phase may follow which in one update. -/
inductive Follows : MissionPhase → MissionPhase → Prop where
  | stay (phase : MissionPhase) : Follows phase phase
  | ascent : Follows .boot .ascent
  | preFloat : Follows .ascent .preFloat
  | float : Follows .preFloat .float
  | abort : Follows .preFloat .descent
  | descent : Follows .float .descent
  | landed : Follows .descent .landed

/-- The pairs of phases that may follow each other. -/
theorem follows_iff {before after : MissionPhase} : Follows before after ↔
    before = after ∨ (before, after) ∈ [(MissionPhase.boot, MissionPhase.ascent), (.ascent, .preFloat),
      (.preFloat, .float), (.preFloat, .descent), (.float, .descent), (.descent, .landed)] := by
  constructor
  · rintro (_ | _) <;> simp
  · rintro (rfl | hmem)
    · exact .stay _
    · simp only [List.mem_cons, Prod.mk.injEq, List.not_mem_nil, or_false] at hmem
      rcases hmem with ⟨rfl, rfl⟩ | ⟨rfl, rfl⟩ | ⟨rfl, rfl⟩ | ⟨rfl, rfl⟩ | ⟨rfl, rfl⟩ | ⟨rfl, rfl⟩
      exacts [.ascent, .preFloat, .float, .abort, .descent, .landed]

instance (before after : MissionPhase) : Decidable (Follows before after) := decidable_of_iff _ follows_iff.symm

/-- A pressure qualifies for a transition. The one out of boot needs none. -/
def qualifies (config : TransitionConfig P) (before after : MissionPhase) (pressure : Option P) : Bool :=
  match before, after with
  | .ascent, .preFloat => atOrBelow pressure config.preFloatMbar
  | .preFloat, .float => atOrBelow pressure config.ascentToFloatMbar
  | .preFloat, .descent | .float, .descent => atOrAbove pressure config.floatToDescentMbar
  | .descent, .landed => atOrAbove pressure config.descentToLandedMbar
  | _, _ => true

/-- The newest updates, so many of them, were made in a phase with pressures that qualify for the next one. -/
def Debounced (config : TransitionConfig P) (count : ℕ) (before after : MissionPhase) (log : List (PhaseUpdate P)) :
    Prop :=
  Newest count (fun u => u.before = before ∧ qualifies config before after u.pressure = true) log

/-- The law of an update: the phase stays or moves forward, and a move that the pressure drives comes after enough
consecutive qualifying updates in the phase it leaves. -/
def Orderly (config : TransitionConfig P) (required : ℕ) (u : PhaseUpdate P) (log : List (PhaseUpdate P)) : Prop :=
  Follows u.before u.after ∧
    (u.before ≠ u.after → u.before ≠ .boot → Debounced config required u.before u.after (u :: log))

instance (config : TransitionConfig P) (required : ℕ) (u : PhaseUpdate P) (log : List (PhaseUpdate P)) :
    Decidable (Orderly config required u log) :=
  inferInstanceAs (Decidable (Follows u.before u.after ∧ (u.before ≠ u.after → u.before ≠ .boot →
    Newest required (fun v => v.before = u.before ∧ qualifies config u.before u.after v.pressure = true) (u :: log))))

/-- The control loop as far as it tracks the phase: the overrides that commands queue, the ones the tick under way has
taken and not used yet, and every update so far. -/
structure PhaseTracker (P : Type*) where
  watch : LinkWatch
  manager : StateManager P
  overrides : StateOverrides
  taken : Option StateOverrides
  log : List (PhaseUpdate P)

/-- A step of the control loop or a command: a tick begins, reads the sensors, is drained. Setting or forcing the phase
is left out. -/
inductive TrackEvent (P : Type*) where
  | beginTick
  | readSensors (pressure : Option P)
  | drain (acknowledged connected : Bool)
  | command (command : LinkCommand)
  | resetCtrl
deriving DecidableEq

namespace PhaseTracker

/-- The loop as the process starts. -/
def new (link : LinkLossConfig) (tickHz : ℚ) (silent : Bool) (config : TransitionConfig P) : PhaseTracker P :=
  ⟨.new link tickHz silent, .new config, {}, none, []⟩

variable (t : PhaseTracker P)

/-- A tick takes the queued overrides. -/
def begin : PhaseTracker P :=
  match t.watch.current with
  | none => { t with watch := t.watch.beginTick, overrides := {}, taken := some t.overrides }
  | some _ => t

/-- The sensors are read; the phase is updated while fallback is active. -/
def readSensors (pressure : Option P) : PhaseTracker P :=
  match t.taken with
  | none => t
  | some overrides =>
    if t.watch.linkLossFallbackActive then
      let manager := t.manager.update pressure overrides
      { t with
        manager := manager
        taken := none
        log := ⟨t.manager.phase, pressure, manager.phase⟩ :: t.log }
    else { t with taken := none }

/-- One step; a step out of turn does nothing. In radio silence a control reset is refused. -/
def step : TrackEvent P → PhaseTracker P
  | .beginTick => t.begin
  | .readSensors pressure => t.readSensors pressure
  | .drain acknowledged connected =>
    if t.taken.isSome then t else { t with watch := t.watch.step (.drain acknowledged connected) }
  | .command command => { t with watch := t.watch.obey command }
  | .resetCtrl =>
    if t.watch.transmitEnabled then { t with overrides := { t.overrides with resetControl := true } } else t

/-- Every update so far was orderly. -/
def InOrder : Prop := Lawful (Orderly t.manager.config t.manager.required) t.log

instance : Decidable t.InOrder :=
  inferInstanceAs (Decidable (Lawful (Orderly t.manager.config t.manager.required) t.log))

/-- The condition on an update of a tracked phase: a control reset comes no later than in ascent, and a reading that
completes the count for float finds that no update the count goes back over was one of the descent. -/
def Steady : TrackEvent P → Prop
  | .readSensors pressure =>
    ∀ overrides ∈ t.taken, t.watch.linkLossFallbackActive = true →
      (overrides.resetControl = true → t.manager.phase = .boot ∨ t.manager.phase = .ascent) ∧
        (overrides.resetControl = false → t.manager.phase = .preFloat → t.manager.Completes pressure →
          ∀ u ∈ t.log.take t.manager.debounceFloat, t.manager.interrupts u = false)
  | _ => True

end PhaseTracker

namespace StateManager

variable {m : StateManager P} {log : List (PhaseUpdate P)}

/-- A counter stands for the newest updates, and for fewer than a transition takes. -/
def Counting (m : StateManager P) (count : ℕ) (test : PhaseUpdate P → Prop) (log : List (PhaseUpdate P)) : Prop :=
  count < m.required ∧ Newest count test log

/-- The updates a counter of a transition stands for. -/
def Toward (m : StateManager P) (before after : MissionPhase) (u : PhaseUpdate P) : Prop :=
  u.before = before ∧ qualifies m.config before after u.pressure = true

/-- The updates the counter for float stands for: those of the descent in between it leaves out. -/
def TowardFloat (m : StateManager P) (u : PhaseUpdate P) : Prop :=
  u.before = .preFloat ∧
    (atOrBelow u.pressure m.config.ascentToFloatMbar = true ∨ atOrAbove u.pressure m.config.floatToDescentMbar = true)

/-- What the counters stand for in each phase. Those of other phases are zero. -/
def Counted (m : StateManager P) (log : List (PhaseUpdate P)) : Prop :=
  match m.phase with
  | .ascent =>
    m.Counting m.debouncePreFloat (m.Toward .ascent .preFloat) log ∧ m.debounceFloat = 0 ∧ m.debounceDescent = 0 ∧
      m.debounceLanded = 0
  | .preFloat =>
    m.debouncePreFloat = 0 ∧ m.Counting m.debounceFloat m.TowardFloat log ∧
      m.Counting m.debounceDescent (m.Toward .preFloat .descent) log ∧ m.debounceLanded = 0
  | .float =>
    m.debouncePreFloat = 0 ∧ m.debounceFloat = 0 ∧ m.Counting m.debounceDescent (m.Toward .float .descent) log ∧
      m.debounceLanded = 0
  | .descent =>
    m.debouncePreFloat = 0 ∧ m.debounceFloat = 0 ∧ m.debounceDescent = 0 ∧
      m.Counting m.debounceLanded (m.Toward .descent .landed) log
  | .boot | .landed | .stopped =>
    m.debouncePreFloat = 0 ∧ m.debounceFloat = 0 ∧ m.debounceDescent = 0 ∧ m.debounceLanded = 0

omit [LinearOrder P] in
/-- A transition takes at least one reading. -/
theorem required_pos (m : StateManager P) : 0 < m.required := by
  unfold required
  omega

omit [LinearOrder P] in
/-- A counter at zero stands for nothing. -/
theorem counting_zero (m : StateManager P) (test : PhaseUpdate P → Prop) (log : List (PhaseUpdate P)) :
    m.Counting 0 test log :=
  ⟨m.required_pos, newest_zero test log⟩

/-- Counters that are all at zero stand for nothing, in every phase. -/
theorem counted_of_zero (hpreFloat : m.debouncePreFloat = 0) (hfloat : m.debounceFloat = 0)
    (hdescent : m.debounceDescent = 0) (hlanded : m.debounceLanded = 0) (log : List (PhaseUpdate P)) :
    m.Counted log := by
  unfold Counted
  rw [hpreFloat, hfloat, hdescent, hlanded]
  split
  · exact ⟨m.counting_zero _ _, rfl, rfl, rfl⟩
  · exact ⟨rfl, m.counting_zero _ _, m.counting_zero _ _, rfl⟩
  · exact ⟨rfl, rfl, m.counting_zero _ _, rfl⟩
  · exact ⟨rfl, rfl, rfl, m.counting_zero _ _⟩
  all_goals exact ⟨rfl, rfl, rfl, rfl⟩

/-- What the counters stand for in ascent. -/
theorem counted_ascent (hphase : m.phase = .ascent) : m.Counted log ↔
    m.Counting m.debouncePreFloat (m.Toward .ascent .preFloat) log ∧ m.debounceFloat = 0 ∧ m.debounceDescent = 0 ∧
      m.debounceLanded = 0 := by
  unfold Counted
  rw [hphase]

/-- What the counters stand for in pre-float. -/
theorem counted_preFloat (hphase : m.phase = .preFloat) : m.Counted log ↔
    m.debouncePreFloat = 0 ∧ m.Counting m.debounceFloat m.TowardFloat log ∧
      m.Counting m.debounceDescent (m.Toward .preFloat .descent) log ∧ m.debounceLanded = 0 := by
  unfold Counted
  rw [hphase]

/-- What the counters stand for in float. -/
theorem counted_float (hphase : m.phase = .float) : m.Counted log ↔
    m.debouncePreFloat = 0 ∧ m.debounceFloat = 0 ∧ m.Counting m.debounceDescent (m.Toward .float .descent) log ∧
      m.debounceLanded = 0 := by
  unfold Counted
  rw [hphase]

/-- What the counters stand for in descent. -/
theorem counted_descent (hphase : m.phase = .descent) : m.Counted log ↔
    m.debouncePreFloat = 0 ∧ m.debounceFloat = 0 ∧ m.debounceDescent = 0 ∧
      m.Counting m.debounceLanded (m.Toward .descent .landed) log := by
  unfold Counted
  rw [hphase]

omit [LinearOrder P] in
/-- Another update counts, and the transition takes more. -/
theorem Counting.next {count : ℕ} {test : PhaseUpdate P → Prop} {u : PhaseUpdate P} (h : m.Counting count test log)
    (hu : test u) (hshort : ¬count + 1 ≥ m.required) : m.Counting (count + 1) test (u :: log) :=
  ⟨not_le.mp hshort, h.2.cons hu⟩

/-- The update that completes a count makes the newest ones enough for the transition. -/
theorem Counting.debounced {count : ℕ} {before after : MissionPhase} {u : PhaseUpdate P}
    (h : m.Counting count (m.Toward before after) log) (hu : m.Toward before after u)
    (hcompletes : count + 1 ≥ m.required) : Debounced m.config m.required before after (u :: log) :=
  (h.2.cons hu).of_le hcompletes

/-- A phase that stays is in order. -/
theorem orderly_stay (config : TransitionConfig P) (required : ℕ) (phase : MissionPhase) (pressure : Option P)
    (log : List (PhaseUpdate P)) : Orderly config required ⟨phase, pressure, phase⟩ log :=
  ⟨.stay phase, fun hmoves => absurd rfl hmoves⟩

/-- An update in ascent. -/
theorem Counted.updateAscent (h : m.Counted log) (hphase : m.phase = .ascent) (pressure : Option P) :
    (m.updateAscent pressure).Counted (⟨.ascent, pressure, (m.updateAscent pressure).phase⟩ :: log) ∧
      Orderly m.config m.required ⟨.ascent, pressure, (m.updateAscent pressure).phase⟩ log := by
  obtain ⟨hcount, hfloat, hdescent, hlanded⟩ := (counted_ascent hphase).mp h
  unfold StateManager.updateAscent
  split
  case isTrue hbelow =>
    have hu (next : MissionPhase) : m.Toward .ascent .preFloat ⟨.ascent, pressure, next⟩ := ⟨rfl, hbelow⟩
    split
    case isTrue hcompletes =>
      refine ⟨?_, .preFloat, fun _ _ => hcount.debounced (hu _) hcompletes⟩
      exact counted_of_zero (m := { m with phase := .preFloat, debouncePreFloat := 0 }) rfl hfloat hdescent hlanded _
    case isFalse hshort =>
      have hnext := hcount.next (hu m.phase) hshort
      refine ⟨(counted_ascent (m := { m with debouncePreFloat := m.debouncePreFloat + 1 }) hphase).mpr
        ⟨hnext, hfloat, hdescent, hlanded⟩, ?_⟩
      rw [hphase]
      exact orderly_stay _ _ _ _ _
  case isFalse =>
    refine ⟨counted_of_zero (m := { m with debouncePreFloat := 0 }) rfl hfloat hdescent hlanded _, ?_⟩
    rw [hphase]
    exact orderly_stay _ _ _ _ _

/-- An update in float. -/
theorem Counted.updateFloat (h : m.Counted log) (hphase : m.phase = .float) (pressure : Option P) :
    (m.updateFloat pressure).Counted (⟨.float, pressure, (m.updateFloat pressure).phase⟩ :: log) ∧
      Orderly m.config m.required ⟨.float, pressure, (m.updateFloat pressure).phase⟩ log := by
  obtain ⟨hpreFloat, hfloat, hcount, hlanded⟩ := (counted_float hphase).mp h
  unfold StateManager.updateFloat
  split
  case isTrue habove =>
    have hu (next : MissionPhase) : m.Toward .float .descent ⟨.float, pressure, next⟩ := ⟨rfl, habove⟩
    split
    case isTrue hcompletes =>
      refine ⟨?_, .descent, fun _ _ => hcount.debounced (hu _) hcompletes⟩
      exact counted_of_zero (m := { m with phase := .descent, debounceDescent := 0 }) hpreFloat hfloat rfl hlanded _
    case isFalse hshort =>
      have hnext := hcount.next (hu m.phase) hshort
      refine ⟨(counted_float (m := { m with debounceDescent := m.debounceDescent + 1 }) hphase).mpr
        ⟨hpreFloat, hfloat, hnext, hlanded⟩, ?_⟩
      rw [hphase]
      exact orderly_stay _ _ _ _ _
  case isFalse =>
    refine ⟨counted_of_zero (m := { m with debounceDescent := 0 }) hpreFloat hfloat rfl hlanded _, ?_⟩
    rw [hphase]
    exact orderly_stay _ _ _ _ _

/-- An update in descent. -/
theorem Counted.updateDescent (h : m.Counted log) (hphase : m.phase = .descent) (pressure : Option P) :
    (m.updateDescent pressure).Counted (⟨.descent, pressure, (m.updateDescent pressure).phase⟩ :: log) ∧
      Orderly m.config m.required ⟨.descent, pressure, (m.updateDescent pressure).phase⟩ log := by
  obtain ⟨hpreFloat, hfloat, hdescent, hcount⟩ := (counted_descent hphase).mp h
  unfold StateManager.updateDescent
  split
  case isTrue habove =>
    have hu (next : MissionPhase) : m.Toward .descent .landed ⟨.descent, pressure, next⟩ := ⟨rfl, habove⟩
    split
    case isTrue hcompletes =>
      refine ⟨?_, .landed, fun _ _ => hcount.debounced (hu _) hcompletes⟩
      exact counted_of_zero (m := { m with phase := .landed, debounceLanded := 0 }) hpreFloat hfloat hdescent rfl _
    case isFalse hshort =>
      have hnext := hcount.next (hu m.phase) hshort
      refine ⟨(counted_descent (m := { m with debounceLanded := m.debounceLanded + 1 }) hphase).mpr
        ⟨hpreFloat, hfloat, hdescent, hnext⟩, ?_⟩
      rw [hphase]
      exact orderly_stay _ _ _ _ _
  case isFalse =>
    refine ⟨counted_of_zero (m := { m with debounceLanded := 0 }) hpreFloat hfloat hdescent rfl _, ?_⟩
    rw [hphase]
    exact orderly_stay _ _ _ _ _

/-- An update in pre-float keeps what the counters stand for. -/
theorem Counted.updatePreFloat (h : m.Counted log) (hphase : m.phase = .preFloat) (pressure : Option P) :
    (m.updatePreFloat pressure).Counted (⟨.preFloat, pressure, (m.updatePreFloat pressure).phase⟩ :: log) := by
  obtain ⟨hpreFloat, hfloat, hdescent, hlanded⟩ := (counted_preFloat hphase).mp h
  unfold StateManager.updatePreFloat
  split
  case isTrue habove =>
    have hu (next : MissionPhase) : m.Toward .preFloat .descent ⟨.preFloat, pressure, next⟩ := ⟨rfl, habove⟩
    have huFloat (next : MissionPhase) : m.TowardFloat ⟨.preFloat, pressure, next⟩ := ⟨rfl, Or.inr habove⟩
    split
    case isTrue hcompletes =>
      exact counted_of_zero (m := { m with phase := .descent, debounceDescent := 0, debounceFloat := 0 })
        hpreFloat rfl rfl hlanded _
    case isFalse hshort =>
      -- the reading of the descent is one more update that the count for float goes back over
      have hkept : m.Counting m.debounceFloat m.TowardFloat (⟨.preFloat, pressure, m.phase⟩ :: log) :=
        ⟨hfloat.1, (hfloat.2.cons (huFloat _)).of_le (Nat.le_succ _)⟩
      exact (counted_preFloat (m := { m with debounceDescent := m.debounceDescent + 1 }) hphase).mpr
        ⟨hpreFloat, hkept, hdescent.next (hu m.phase) hshort, hlanded⟩
  case isFalse =>
    split
    case isTrue hbelow =>
      have huFloat (next : MissionPhase) : m.TowardFloat ⟨.preFloat, pressure, next⟩ := ⟨rfl, Or.inl hbelow⟩
      split
      case isTrue hcompletes =>
        exact counted_of_zero (m := { m with phase := .float, debounceDescent := 0, debounceFloat := 0 })
          hpreFloat rfl rfl hlanded _
      case isFalse hshort =>
        have hnext := hfloat.next (huFloat m.phase) hshort
        exact (counted_preFloat
          (m := { m with debounceDescent := 0, debounceFloat := m.debounceFloat + 1 }) hphase).mpr
          ⟨hpreFloat, hnext, counting_zero _ _ _, hlanded⟩
    case isFalse =>
      exact counted_of_zero (m := { m with debounceDescent := 0, debounceFloat := 0 }) hpreFloat rfl rfl hlanded _

/-- An update in pre-float is in order exactly when it does not complete the count for float, or no update that the
count goes back over was one of the descent. -/
theorem Counted.orderly_preFloat (h : m.Counted log) (hphase : m.phase = .preFloat) (pressure : Option P) :
    Orderly m.config m.required ⟨.preFloat, pressure, (m.updatePreFloat pressure).phase⟩ log ↔
      (m.Completes pressure → ∀ u ∈ log.take m.debounceFloat, m.interrupts u = false) := by
  obtain ⟨hpreFloat, hfloat, hdescent, hlanded⟩ := (counted_preFloat hphase).mp h
  unfold StateManager.updatePreFloat
  split
  case isTrue habove =>
    have hnot : ¬m.Completes pressure := fun hcompletes => by simp [hcompletes.1] at habove
    refine (iff_of_true ?_ fun hcompletes => absurd hcompletes hnot)
    split
    case isTrue hcompletes => exact ⟨.abort, fun _ _ => hdescent.debounced ⟨rfl, habove⟩ hcompletes⟩
    case isFalse =>
      rw [hphase]
      exact orderly_stay _ _ _ _ _
  case isFalse hbelowDescent =>
    split
    case isTrue hbelow =>
      split
      case isTrue hcompletes =>
        have hdone : m.Completes pressure := ⟨by simpa using hbelowDescent, hbelow, hcompletes⟩
        have hlast : m.required = m.debounceFloat + 1 := le_antisymm hcompletes hfloat.1
        constructor
        · rintro ⟨_, hdebounced⟩ _ u hu
          obtain ⟨_, hall⟩ := hdebounced (by simp) (by simp)
          rw [hlast, List.take_succ_cons] at hall
          have hqualifies := (hall u (List.mem_cons_of_mem _ hu)).2
          simp only [qualifies] at hqualifies
          simp [interrupts, hqualifies]
        · intro hnone
          refine ⟨.float, fun _ _ => ?_⟩
          rw [hlast]
          refine (hfloat.2.mono fun u hu htoward => ?_).cons ⟨rfl, hbelow⟩
          have hnot := hnone hdone u hu
          rcases htoward.2 with hcounts | habove
          · exact ⟨htoward.1, hcounts⟩
          · have hcounts : atOrBelow u.pressure m.config.ascentToFloatMbar = true := by
              simpa [interrupts, habove] using hnot
            exact ⟨htoward.1, hcounts⟩
      case isFalse hshort =>
        rw [hphase]
        exact iff_of_true (orderly_stay _ _ _ _ _) fun hcompletes => absurd hcompletes.2.2 hshort
    case isFalse habove =>
      rw [hphase]
      exact iff_of_true (orderly_stay _ _ _ _ _) fun hcompletes => absurd hcompletes.2.1 habove

/-- An update by the phase keeps the settings. -/
theorem updatePhase_config (m : StateManager P) (pressure : Option P) : (m.updatePhase pressure).config = m.config := by
  unfold updatePhase
  split
  · rfl
  · unfold StateManager.updateAscent
    split
    · split <;> rfl
    · rfl
  · unfold StateManager.updatePreFloat
    split
    · split <;> rfl
    · split
      · split <;> rfl
      · rfl
  · unfold StateManager.updateFloat
    split
    · split <;> rfl
    · rfl
  · unfold StateManager.updateDescent
    split
    · split <;> rfl
    · rfl
  all_goals rfl

/-- An update by the phase keeps what the counters stand for. -/
theorem Counted.updatePhase (h : m.Counted log) (pressure : Option P) :
    (m.updatePhase pressure).Counted (⟨m.phase, pressure, (m.updatePhase pressure).phase⟩ :: log) := by
  unfold StateManager.updatePhase
  cases hphase : m.phase with
  | boot =>
    unfold Counted at h
    rw [hphase] at h
    exact counted_of_zero (m := { m with phase := .ascent }) h.1 h.2.1 h.2.2.1 h.2.2.2 _
  | ascent => exact (h.updateAscent hphase pressure).1
  | preFloat => exact h.updatePreFloat hphase pressure
  | float => exact (h.updateFloat hphase pressure).1
  | descent => exact (h.updateDescent hphase pressure).1
  | landed =>
    unfold Counted at h
    rw [hphase] at h
    exact counted_of_zero h.1 h.2.1 h.2.2.1 h.2.2.2 _
  | stopped =>
    unfold Counted at h
    rw [hphase] at h
    exact counted_of_zero h.1 h.2.1 h.2.2.1 h.2.2.2 _

/-- An update by the phase is in order exactly when it does not complete a count for float that goes back over an
update of the descent. -/
theorem Counted.orderly_updatePhase (h : m.Counted log) (pressure : Option P) :
    Orderly m.config m.required ⟨m.phase, pressure, (m.updatePhase pressure).phase⟩ log ↔
      (m.phase = .preFloat → m.Completes pressure → ∀ u ∈ log.take m.debounceFloat, m.interrupts u = false) := by
  unfold StateManager.updatePhase
  cases hphase : m.phase with
  | boot => simp [Orderly, Follows.ascent]
  | ascent => simp [(h.updateAscent hphase pressure).2]
  | preFloat => simpa using h.orderly_preFloat hphase pressure
  | float => simp [(h.updateFloat hphase pressure).2]
  | descent => simp [(h.updateDescent hphase pressure).2]
  | landed => simp [hphase, orderly_stay]
  | stopped => simp [hphase, orderly_stay]

end StateManager

/-- Nothing but a control reset is asked for. -/
def StateOverrides.OnlyReset (overrides : StateOverrides) : Prop :=
  overrides.forceStart = false ∧ overrides.forceStop = false ∧ overrides.shutdownSafe = false

namespace StateManager

variable {m : StateManager P} {log : List (PhaseUpdate P)} {overrides : StateOverrides}

/-- Without a control reset the update goes by the phase. -/
theorem update_of_no_reset (m : StateManager P) (honly : overrides.OnlyReset) (hnone : overrides.resetControl = false)
    (pressure : Option P) : m.update pressure overrides = m.updatePhase pressure := by
  unfold update
  simp [hnone, honly.1, honly.2.1, honly.2.2]

/-- A control reset starts over, and the update leaves boot at once. -/
theorem update_of_reset (m : StateManager P) (honly : overrides.OnlyReset) (hreset : overrides.resetControl = true)
    (pressure : Option P) : m.update pressure overrides = { m.reset with phase := .ascent } := by
  unfold update
  simp [hreset, honly.1, honly.2.1, honly.2.2, updatePhase, reset, resetDebounce]

/-- An update keeps the settings. -/
theorem update_config (m : StateManager P) (honly : overrides.OnlyReset) (pressure : Option P) :
    (m.update pressure overrides).config = m.config := by
  cases hreset : overrides.resetControl with
  | false => rw [update_of_no_reset m honly hreset, updatePhase_config]
  | true => rw [update_of_reset m honly hreset]; rfl

/-- An update keeps what the counters stand for. -/
theorem Counted.update (h : m.Counted log) (honly : overrides.OnlyReset) (pressure : Option P) :
    (m.update pressure overrides).Counted (⟨m.phase, pressure, (m.update pressure overrides).phase⟩ :: log) := by
  cases hreset : overrides.resetControl with
  | false =>
    rw [update_of_no_reset m honly hreset]
    exact h.updatePhase pressure
  | true =>
    rw [update_of_reset m honly hreset]
    exact counted_of_zero (m := { m.reset with phase := .ascent }) rfl rfl rfl rfl _

/-- When an update is in order. -/
theorem Counted.orderly_update (h : m.Counted log) (honly : overrides.OnlyReset) (pressure : Option P) :
    Orderly m.config m.required ⟨m.phase, pressure, (m.update pressure overrides).phase⟩ log ↔
      (overrides.resetControl = true → m.phase = .boot ∨ m.phase = .ascent) ∧
        (overrides.resetControl = false → m.phase = .preFloat → m.Completes pressure →
          ∀ u ∈ log.take m.debounceFloat, m.interrupts u = false) := by
  cases hreset : overrides.resetControl with
  | false =>
    rw [update_of_no_reset m honly hreset, h.orderly_updatePhase]
    simp
  | true =>
    rw [update_of_reset m honly hreset]
    simp only [forall_const, Bool.true_eq_false, false_implies, and_true]
    constructor
    · rintro ⟨hfollows, _⟩
      -- only boot and ascent itself may be followed by ascent
      cases hphase : m.phase with
      | boot => exact Or.inl rfl
      | ascent => exact Or.inr rfl
      | _ => rw [hphase] at hfollows; cases hfollows
    · rintro (hphase | hphase)
      · rw [hphase]
        exact ⟨.ascent, fun _ hboot => absurd rfl hboot⟩
      · rw [hphase]
        exact orderly_stay _ _ _ _ _

end StateManager

namespace PhaseTracker

variable {t : PhaseTracker P}

/-- What holds along a run whose updates are steady. -/
structure Tracked (t : PhaseTracker P) : Prop where
  counted : t.manager.Counted t.log
  inOrder : t.InOrder
  queued : t.overrides.OnlyReset
  taken : ∀ overrides ∈ t.taken, overrides.OnlyReset

/-- A step other than reading the sensors leaves the phase and the log. -/
theorem Tracked.step_other (h : t.Tracked) (event : TrackEvent P) (hother : ∀ pressure, event ≠ .readSensors pressure) :
    (t.step event).Tracked := by
  cases event with
  | beginTick =>
    simp only [step, begin]
    split
    · exact ⟨h.counted, h.inOrder, ⟨rfl, rfl, rfl⟩, fun overrides hmem => Option.some.inj hmem ▸ h.queued⟩
    · exact h
  | readSensors pressure => exact absurd rfl (hother pressure)
  | drain acknowledged connected =>
    simp only [step]
    split
    · exact h
    · exact ⟨h.counted, h.inOrder, h.queued, h.taken⟩
  | command command => exact ⟨h.counted, h.inOrder, h.queued, h.taken⟩
  | resetCtrl =>
    simp only [step]
    split
    · exact ⟨h.counted, h.inOrder, h.queued, h.taken⟩
    · exact h

/-- Reading the sensors keeps the log in order exactly when it is steady. -/
theorem Tracked.readSensors_inOrder_iff (h : t.Tracked) (pressure : Option P) :
    (t.readSensors pressure).InOrder ↔ t.Steady (.readSensors pressure) := by
  unfold readSensors Steady
  cases htaken : t.taken with
  | none => simp [h.inOrder]
  | some overrides =>
    have honly := h.taken overrides htaken
    by_cases hactive : t.watch.linkLossFallbackActive = true
    · have hconfig := StateManager.update_config t.manager honly pressure
      have horder : Lawful (Orderly t.manager.config t.manager.required) t.log := h.inOrder
      simp only [hactive, if_true, InOrder, StateManager.required, hconfig, Lawful]
      have hiff := h.counted.orderly_update honly pressure
      simp only [StateManager.required] at hiff horder
      simp [hiff, horder]
    · simp only [hactive, if_false, Bool.false_eq_true]
      simpa [InOrder] using h.inOrder

/-- Reading the sensors keeps everything else. -/
theorem Tracked.readSensors (h : t.Tracked) (pressure : Option P) (hsteady : t.Steady (.readSensors pressure)) :
    (t.readSensors pressure).Tracked := by
  have hinOrder := (h.readSensors_inOrder_iff pressure).mpr hsteady
  revert hinOrder
  unfold PhaseTracker.readSensors
  cases htaken : t.taken with
  | none => exact fun _ => h
  | some overrides =>
    dsimp only
    split
    · intro hinOrder
      exact ⟨h.counted.update (h.taken overrides htaken) pressure, hinOrder, h.queued, by simp⟩
    · intro hinOrder
      exact ⟨h.counted, hinOrder, h.queued, by simp⟩

/-- In every run every update of the tracked phase is in order, in every state it goes through, exactly when every
update is steady. -/
theorem inOrder_iff_steady (link : LinkLossConfig) (tickHz : ℚ) (silent : Bool) (config : TransitionConfig P)
    (events : List (TrackEvent P)) :
    Holds step InOrder (new link tickHz silent config) events ↔
      Meets step Steady (new link tickHz silent config) events := by
  refine holds_iff_meets (fun t event (h : Tracked t) hsteady => ?_) (fun t h => h.inOrder)
    (fun t event h hnot => ?_) ?_
  · cases event with
    | readSensors pressure => exact h.readSensors pressure hsteady
    | _ => exact h.step_other _ (by simp)
  · cases event with
    | readSensors pressure => exact fun hinOrder => hnot ((h.readSensors_inOrder_iff pressure).mp hinOrder)
    | _ => exact absurd trivial hnot
  · exact ⟨StateManager.counted_of_zero rfl rfl rfl rfl _, trivial, ⟨rfl, rfl, rfl⟩, by simp [new]⟩

/-- The thresholds of the configuration as it is delivered, with two readings for a transition. -/
def benchTransitions : TransitionConfig ℤ := ⟨150, 100, 300, 800, 2⟩

/-- A tick whose frame is not acknowledged, with its pressure. -/
def lostTick (pressure : ℤ) : List (TrackEvent ℤ) := [.beginTick, .readSensors (some pressure), .drain false false]

/-- The link is in order and then lost; from the fourth tick on the phase is tracked, and two readings later it is
pre-float. -/
def upToPreFloat : List (TrackEvent ℤ) :=
  [.command .arm, .beginTick, .readSensors (some 900), .drain true true] ++ lostTick 900 ++ lostTick 900 ++
    lostTick 140 ++ lostTick 140

/-- The run up to pre-float, and what comes after it. -/
def trackedRun (events : List (TrackEvent ℤ)) : PhaseTracker ℤ :=
  run step (new {} (1 / 10) false benchTransitions) (upToPreFloat ++ events)

/-- A reading of the descent between two of the float counts for nothing and interrupts nothing, and a control reset
takes the tracked phase back to ascent. -/
theorem not_inOrder_interrupted_or_reset :
    ¬(trackedRun (lostTick 90 ++ lostTick 310 ++ lostTick 90)).InOrder ∧
      ¬(trackedRun (.resetCtrl :: lostTick 140)).InOrder := by
  constructor
  · decide +kernel
  · decide +kernel

end PhaseTracker

end Coatheal.Fallback
