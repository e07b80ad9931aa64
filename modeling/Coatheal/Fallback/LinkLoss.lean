import Coatheal.Library.Run
import Coatheal.Mission
import Mathlib.Algebra.BigOperators.Group.List.Basic
import Mathlib.Data.Real.Basic
import Mathlib.Tactic.Linarith

/-!
# The link-loss clock

Each tick of the control loop adds its own duration to the clock when the last
frame was not answered, sets it back when one was, and holds it at zero in radio
silence. Commands come at any time between two steps of the loop. The ticks that
are over are kept, the newest first, for the statements only: what they sum to
is compared with the clock.
-/

namespace Coatheal.Fallback

open Coatheal.Library

/-- The settings of link-loss fallback. -/
structure LinkLossConfig where
  manualFirst : Bool := true
  linkLossFallbackEnabled : Bool := true
  linkLossFallbackS : ℚ := 10
deriving DecidableEq

/-- A tick: what it read at its start, how long it is, and whether a frame was acknowledged in it and
whether it left the link in order. -/
structure Tick where
  mode : SystemMode
  transmitEnabled : Bool
  duration : ℚ
  acknowledged : Bool
  linkOk : Bool
deriving DecidableEq

/-- The part of the controller that decides on fallback. -/
structure LinkWatch where
  config : LinkLossConfig
  mode : SystemMode
  transmitEnabled : Bool
  liveTickHz : ℚ
  lastLinkOk : Bool
  linkSeen : Bool
  linkLossS : ℚ
  linkLossFallbackActive : Bool
  current : Option Tick
  past : List Tick

/-- The commands that reach the link-loss clock. -/
inductive LinkCommand where
  | arm
  | disarm
  | enterSafe
  | exitSafe
  | radioSilence
  | radioResume
  | setTickHz (hz : Option ℚ)
deriving DecidableEq

/-- A step of the control loop or a command. The drain of a tick ends it. -/
inductive LinkEvent where
  | beginTick
  | drain (acknowledged connected : Bool)
  | command (command : LinkCommand)
deriving DecidableEq

namespace LinkWatch

/-- The controller as the process starts, silent when the flag was persisted. -/
def new (config : LinkLossConfig) (tickHz : ℚ) (silent : Bool) : LinkWatch :=
  ⟨config, .standby, !silent, tickHz, false, false, 0, false, none, []⟩

/-- How long a tick is. -/
def tickDuration (watch : LinkWatch) : ℚ := 1 / max (1 / 10) watch.liveTickHz

/-- The clock after a tick has begun. -/
def clock (watch : LinkWatch) : ℚ :=
  if watch.transmitEnabled = false then 0
  else if watch.lastLinkOk then 0
  else if watch.linkSeen then watch.linkLossS + watch.tickDuration
  else watch.linkLossS

/-- Everything fallback needs but the time. -/
def Exposed (watch : LinkWatch) : Prop :=
  watch.config.manualFirst = true ∧ watch.config.linkLossFallbackEnabled = true ∧ watch.mode = .run ∧
    watch.transmitEnabled = true ∧ watch.linkSeen = true ∧ watch.lastLinkOk = false

instance (watch : LinkWatch) : Decidable watch.Exposed := inferInstanceAs (Decidable (_ ∧ _))

/-- The link has been in order by the time a tick has begun. -/
def seen (watch : LinkWatch) : Bool :=
  watch.linkSeen || (watch.transmitEnabled && watch.lastLinkOk)

/-- A tick begins: the clock runs and fallback is decided. -/
def beginTick (watch : LinkWatch) : LinkWatch :=
  { watch with
    linkSeen := watch.seen
    linkLossS := watch.clock
    linkLossFallbackActive := decide (watch.Exposed ∧ watch.config.linkLossFallbackS ≤ watch.clock)
    current := some ⟨watch.mode, watch.transmitEnabled, watch.tickDuration, false, false⟩ }

/-- The frames of a tick are drained and the tick is over. The link is in order from the first
acknowledgement, or while it is connected. -/
def drain (watch : LinkWatch) (tick : Tick) (acknowledged connected : Bool) : LinkWatch :=
  { watch with
    lastLinkOk := acknowledged || connected
    current := none
    past := { tick with acknowledged := acknowledged, linkOk := acknowledged || connected } :: watch.past }

/-- A command. In radio silence only the radio commands have an effect. -/
def obey (watch : LinkWatch) : LinkCommand → LinkWatch
  | .radioSilence => { watch with transmitEnabled := false }
  | .radioResume => { watch with transmitEnabled := true }
  | .arm =>
    if watch.transmitEnabled = true ∧ watch.mode = .standby then { watch with mode := .run } else watch
  | .disarm =>
    if watch.transmitEnabled = true ∧ watch.mode = .run then { watch with mode := .standby } else watch
  | .enterSafe => if watch.transmitEnabled = true then { watch with mode := .safe } else watch
  | .exitSafe =>
    if watch.transmitEnabled = true ∧ watch.mode = .safe then { watch with mode := .standby } else watch
  | .setTickHz (some hz) =>
    if watch.transmitEnabled = true ∧ 1 / 10 ≤ hz ∧ hz ≤ 5 then { watch with liveTickHz := hz } else watch
  | .setTickHz none => watch

/-- One step; a step out of turn does nothing. -/
def step (watch : LinkWatch) : LinkEvent → LinkWatch
  | .beginTick =>
    match watch.current with
    | none => watch.beginTick
    | some _ => watch
  | .drain acknowledged connected =>
    match watch.current with
    | none => watch
    | some tick => watch.drain tick acknowledged connected
  | .command command => watch.obey command

end LinkWatch

/-- A tick in which frames were sent and none was acknowledged. -/
def Tick.unanswered (tick : Tick) : Bool := tick.transmitEnabled && !tick.acknowledged

/-- How long the ticks just over went unanswered without a break. -/
def outage (past : List Tick) : ℚ := ((past.takeWhile Tick.unanswered).map Tick.duration).sum

/-- An unanswered tick prolongs the outage by its duration. -/
theorem outage_cons_of_unanswered {tick : Tick} (h : tick.unanswered = true) (past : List Tick) :
    outage (tick :: past) = tick.duration + outage past := by
  rw [outage, List.takeWhile_cons_of_pos h, List.map_cons, List.sum_cons]
  rfl

/-- Any other tick ends it. -/
theorem outage_cons_of_answered {tick : Tick} (h : tick.unanswered = false) (past : List Tick) :
    outage (tick :: past) = 0 := by
  rw [outage, List.takeWhile_cons_of_neg (by simp [h])]
  rfl

namespace LinkWatch

/-- Fallback that is active in a tick has a cause: the link was in order before, the tick transmits in
RUN, and the outage before it is as long as the threshold. An acknowledged frame sets the clock back. -/
def Justified (watch : LinkWatch) : Prop :=
  ∀ tick ∈ watch.current,
    (watch.linkLossFallbackActive = true →
      (∃ before ∈ watch.past, before.linkOk = true) ∧ tick.transmitEnabled = true ∧ tick.mode = .run ∧
        watch.config.linkLossFallbackS ≤ outage watch.past) ∧
      ∀ before ∈ watch.past.head?, before.acknowledged = true → watch.linkLossS = 0

/-- The duration of the tick that begins does not decide: not short of the threshold without it and
past the threshold with it. -/
def CountsFinished (watch : LinkWatch) : LinkEvent → Prop
  | .beginTick =>
    watch.current = none → watch.Exposed → outage watch.past < watch.config.linkLossFallbackS →
      watch.linkLossS + watch.tickDuration < watch.config.linkLossFallbackS
  | _ => True

instance (watch : LinkWatch) : (event : LinkEvent) → Decidable (watch.CountsFinished event)
  | .beginTick =>
    have : Decidable (watch.current = none) := decidable_of_iff _ Option.isNone_iff_eq_none
    inferInstanceAs (Decidable (_ → _ → _ → _))
  | .drain _ _ => inferInstanceAs (Decidable True)
  | .command _ => inferInstanceAs (Decidable True)

/-- The link's past as the controller remembers it. -/
structure Remembers (watch : LinkWatch) : Prop where
  last : ∀ before ∈ watch.past.head?, before.linkOk = watch.lastLinkOk
  none_before : watch.past = [] → watch.lastLinkOk = false
  seen : watch.linkSeen = true → ∃ before ∈ watch.past, before.linkOk = true
  acknowledged : ∀ before ∈ watch.past, before.acknowledged = true → before.linkOk = true
  justified : watch.Justified

variable {watch : LinkWatch}

/-- A link that is in order was so in the tick before. -/
theorem Remembers.exists_linkOk (h : watch.Remembers) (hseen : watch.seen = true) :
    ∃ before ∈ watch.past, before.linkOk = true := by
  rcases (Bool.or_eq_true _ _).mp hseen with hsaw | hnow
  · exact h.seen hsaw
  · have hlast : watch.lastLinkOk = true := ((Bool.and_eq_true _ _).mp hnow).2
    cases hpast : watch.past with
    | nil =>
      have hnone := h.none_before hpast
      rw [hlast] at hnone
      exact absurd hnone (by simp)
    | cons before rest =>
      have hbefore := h.last before (by simp [hpast])
      exact ⟨before, List.mem_cons_self, hbefore.trans hlast⟩

/-- When a tick begins, what is remembered stays, and fallback is justified if the tick's own duration
does not decide. -/
theorem Remembers.beginTick (h : watch.Remembers) (hidle : watch.current = none)
    (hcounts : watch.CountsFinished .beginTick) : watch.beginTick.Remembers where
  last := h.last
  none_before := h.none_before
  seen := h.exists_linkOk
  acknowledged := h.acknowledged
  justified := by
    intro tick htick
    obtain rfl := Option.some.inj htick
    refine ⟨fun hactive => ?_, fun before hbefore hack => ?_⟩
    · obtain ⟨hexposed, hclock⟩ := of_decide_eq_true hactive
      have ⟨_, _, hrun, htransmit, hseen, hlost⟩ := hexposed
      refine ⟨h.exists_linkOk (by simp [LinkWatch.seen, hseen]), htransmit, hrun, ?_⟩
      by_contra hshort
      have hless := hcounts hidle hexposed (not_le.mp hshort)
      have hcount : watch.clock = watch.linkLossS + watch.tickDuration := by
        simp [clock, htransmit, hlost, hseen]
      rw [hcount] at hclock
      exact absurd hclock (not_le.mpr hless)
    · have hmem : before ∈ watch.past := List.mem_of_mem_head? hbefore
      have hlast : watch.lastLinkOk = true :=
        (h.last before hbefore).symm.trans (h.acknowledged before hmem hack)
      change watch.clock = 0
      simp [clock, hlast]

/-- A tick that is over is remembered. -/
theorem Remembers.drain (h : watch.Remembers) (tick : Tick) (acknowledged connected : Bool) :
    (watch.drain tick acknowledged connected).Remembers where
  last := by
    intro before hbefore
    obtain rfl := Option.some.inj hbefore
    rfl
  none_before := fun hpast => absurd hpast (List.cons_ne_nil _ _)
  seen := fun hseen =>
    have ⟨before, hmem, hok⟩ := h.seen hseen
    ⟨before, List.mem_cons_of_mem _ hmem, hok⟩
  acknowledged := by
    intro before hmem hack
    rcases List.mem_cons.mp hmem with rfl | hold
    · have hsame : acknowledged = true := hack
      rw [hsame, Bool.true_or]
    · exact h.acknowledged before hold hack
  justified := fun _ hmem => absurd hmem (by simp [LinkWatch.drain])

/-- A command changes neither the clock nor what the loop has seen. -/
theorem obey_same (watch : LinkWatch) (command : LinkCommand) :
    (watch.obey command).config = watch.config ∧ (watch.obey command).lastLinkOk = watch.lastLinkOk ∧
      (watch.obey command).linkSeen = watch.linkSeen ∧ (watch.obey command).linkLossS = watch.linkLossS ∧
      (watch.obey command).linkLossFallbackActive = watch.linkLossFallbackActive ∧
      (watch.obey command).current = watch.current ∧ (watch.obey command).past = watch.past := by
  cases command with
  | setTickHz hz =>
    cases hz with
    | none => exact ⟨rfl, rfl, rfl, rfl, rfl, rfl, rfl⟩
    | some hz =>
      simp only [obey]
      split <;> exact ⟨rfl, rfl, rfl, rfl, rfl, rfl, rfl⟩
  | radioSilence => exact ⟨rfl, rfl, rfl, rfl, rfl, rfl, rfl⟩
  | radioResume => exact ⟨rfl, rfl, rfl, rfl, rfl, rfl, rfl⟩
  | _ =>
    simp only [obey]
    split <;> exact ⟨rfl, rfl, rfl, rfl, rfl, rfl, rfl⟩

/-- A command leaves what is remembered. -/
theorem Remembers.obey (h : watch.Remembers) (command : LinkCommand) : (watch.obey command).Remembers := by
  obtain ⟨hconfig, hlast, hseen, hclock, hactive, hcurrent, hpast⟩ := watch.obey_same command
  refine ⟨?_, ?_, ?_, ?_, ?_⟩
  · rw [hpast, hlast]
    exact h.last
  · rw [hpast, hlast]
    exact h.none_before
  · rw [hpast, hseen]
    exact h.seen
  · rw [hpast]
    exact h.acknowledged
  · rw [Justified, hcurrent, hactive, hpast, hconfig, hclock]
    exact h.justified

/-- A step in which the duration of a tick that begins does not decide keeps what is remembered. -/
theorem Remembers.step (h : watch.Remembers) {event : LinkEvent} (hcounts : watch.CountsFinished event) :
    (watch.step event).Remembers := by
  cases event with
  | beginTick =>
    cases hcurrent : watch.current with
    | none =>
      simp only [LinkWatch.step, hcurrent]
      exact h.beginTick hcurrent hcounts
    | some tick =>
      simp only [LinkWatch.step, hcurrent]
      exact h
  | drain acknowledged connected =>
    cases hcurrent : watch.current with
    | none =>
      simp only [LinkWatch.step, hcurrent]
      exact h
    | some tick =>
      simp only [LinkWatch.step, hcurrent]
      exact h.drain tick acknowledged connected
  | command command => exact h.obey command

/-- A tick takes time. -/
theorem tickDuration_nonneg (watch : LinkWatch) : 0 ≤ watch.tickDuration := by
  have hrate : (0 : ℚ) ≤ max (1 / 10) watch.liveTickHz := le_max_of_le_left (by norm_num)
  exact div_nonneg zero_le_one hrate

/-- The clock is never ahead of the outage by more than the tick under way. -/
structure Paced (watch : LinkWatch) : Prop where
  idle : watch.current = none → watch.lastLinkOk = false → watch.linkLossS ≤ outage watch.past
  silent : ∀ tick ∈ watch.current, tick.transmitEnabled = false → watch.linkLossS = 0
  ticking : ∀ tick ∈ watch.current, watch.linkLossS ≤ outage watch.past + tick.duration
  forward : ∀ tick ∈ watch.current, 0 ≤ tick.duration
  lengths : 0 ≤ outage watch.past

/-- A tick that begins puts the clock ahead by its own duration at most. -/
theorem Paced.beginTick (h : watch.Paced) (hidle : watch.current = none) : watch.beginTick.Paced := by
  have hduration := watch.tickDuration_nonneg
  have hlengths := h.lengths
  refine ⟨fun hnone => absurd hnone (by simp [LinkWatch.beginTick]), ?_, ?_, ?_, hlengths⟩
  · intro tick htick hsilent
    obtain rfl := Option.some.inj htick
    exact if_pos hsilent
  · intro tick htick
    obtain rfl := Option.some.inj htick
    change watch.clock ≤ outage watch.past + watch.tickDuration
    unfold clock
    by_cases hsilent : watch.transmitEnabled = false
    · rw [if_pos hsilent]
      linarith
    · rw [if_neg hsilent]
      cases hlast : watch.lastLinkOk with
      | true =>
        rw [if_pos rfl]
        linarith
      | false =>
        have hbehind := h.idle hidle hlast
        rw [if_neg (by simp)]
        split <;> linarith
  · intro tick htick
    obtain rfl := Option.some.inj htick
    exact hduration

/-- A tick that is over has lasted as long as it counted. -/
theorem Paced.drain (h : watch.Paced) {tick : Tick} (hcurrent : watch.current = some tick)
    (acknowledged connected : Bool) : (watch.drain tick acknowledged connected).Paced := by
  have hticking := h.ticking tick hcurrent
  have hforward := h.forward tick hcurrent
  have hlengths := h.lengths
  have houtage : outage (watch.drain tick acknowledged connected).past =
      if tick.transmitEnabled && !acknowledged then tick.duration + outage watch.past else 0 := by
    by_cases hopen : (tick.transmitEnabled && !acknowledged) = true
    · rw [if_pos hopen]
      exact outage_cons_of_unanswered (by exact hopen) _
    · rw [if_neg hopen]
      exact outage_cons_of_answered (by exact Bool.eq_false_iff.mpr hopen) _
  refine ⟨fun _ hlost => ?_, fun _ hmem => absurd hmem (by simp [LinkWatch.drain]),
    fun _ hmem => absurd hmem (by simp [LinkWatch.drain]),
    fun _ hmem => absurd hmem (by simp [LinkWatch.drain]), ?_⟩
  · have hunanswered : acknowledged = false := by
      cases acknowledged with
      | true => exact absurd hlost (by simp [LinkWatch.drain])
      | false => rfl
    rw [houtage, hunanswered]
    cases htransmit : tick.transmitEnabled with
    | true =>
      change watch.linkLossS ≤ tick.duration + outage watch.past
      linarith
    | false => exact (h.silent tick hcurrent htransmit).le
  · rw [houtage]
    split
    · linarith
    · exact le_rfl

/-- Every step keeps the pace. -/
theorem Paced.step (h : watch.Paced) (event : LinkEvent) : (watch.step event).Paced := by
  cases event with
  | beginTick =>
    cases hcurrent : watch.current with
    | none =>
      simp only [LinkWatch.step, hcurrent]
      exact h.beginTick hcurrent
    | some tick =>
      simp only [LinkWatch.step, hcurrent]
      exact h
  | drain acknowledged connected =>
    cases hcurrent : watch.current with
    | none =>
      simp only [LinkWatch.step, hcurrent]
      exact h
    | some tick =>
      simp only [LinkWatch.step, hcurrent]
      exact h.drain hcurrent acknowledged connected
  | command command =>
    obtain ⟨-, hlast, -, hclock, -, hcurrent, hpast⟩ := watch.obey_same command
    refine ⟨?_, ?_, ?_, ?_, ?_⟩ <;> simp only [LinkWatch.step, hlast, hclock, hcurrent, hpast]
    · exact h.idle
    · exact h.silent
    · exact h.ticking
    · exact h.forward
    · exact h.lengths

/-- Whatever the run, the clock is ahead of the outage by no more than the tick under way. -/
theorem clock_le_outage (config : LinkLossConfig) (tickHz : ℚ) (silent : Bool) (events : List LinkEvent) :
    Holds step (fun watch => ∀ tick ∈ watch.current, watch.linkLossS ≤ outage watch.past + tick.duration)
      (new config tickHz silent) events :=
  @holds_of_step _ _ step Paced _ (fun _ event h => h.step event) (fun _ h => h.ticking) _
    ⟨by simp [new, outage], by simp [new], by simp [new], by simp [new], by simp [new, outage]⟩ events

end LinkWatch

end Coatheal.Fallback
