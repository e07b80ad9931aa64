import Coatheal.Command.Addressing
import Coatheal.Command.Spelling

/-!
# Lines that set the heaters

What a line with gains, with a temperature target or that clears one does once it is acknowledged, and
when it is. The words of a line may be any; what the onboard reads in them decides. A run of
acknowledged lines allows for whatever else happens between two lines, as long as it leaves the
operator's overrides alone, as the steps of the control tick do.
-/

namespace Coatheal.CommandLine

open Coatheal.Library Coatheal.Library.Text Coatheal.Motion

/-- A name of a command is a word. -/
theorem isWord_toText (type : CommandType) : IsWord isSeparator type.toText.toList := by
  have hall : ∀ type ∈ CommandType.all, type.toText.toList ≠ [] ∧
      type.toText.toList.all (fun c => !isSeparator c) = true := by decide +kernel
  exact hall type (by cases type <;> decide)

/-- A command, a first argument with a digit and more arguments are read as they are. -/
theorem parseLine_unwords (motorCount : ℕ) (type : CommandType) {first : List Char} {rest : List (List Char)}
    (h : ∀ word ∈ first :: rest, IsWord isSeparator word) (hdigit : ∃ digit ∈ first, digit.isDigit = true) :
    parseLine motorCount (unwords (type.toText.toList :: first :: rest)) =
      complete motorCount type (first :: rest) := by
  obtain ⟨digit, hdigit, hisDigit⟩ := hdigit
  have hwords : ∀ word ∈ type.toText.toList :: first :: rest, IsWord isSeparator word := by
    intro word hword
    rcases List.mem_cons.mp hword with rfl | hrest
    · exact isWord_toText type
    · exact h word hrest
  have hname : joined [type.toText.toList] = type.toText.toList := by
    have hall : ∀ type ∈ CommandType.all, joined [type.toText.toList] = type.toText.toList := by decide +kernel
    exact hall type (by cases type <;> decide)
  have hgives : Gives (unwords (type.toText.toList :: first :: rest)) type (first :: rest) :=
    ⟨[type.toText.toList], spells_unwords (by decide) hwords, hname⟩
  exact hgives.parseLine_eq motorCount hdigit hisDigit

/-- No command goes on behind the words of the gains of all heaters. -/
theorem lookup_setPid_all {words : List (List Char)} :
    lookup (joined ("SET_PID".toList :: "ALL".toList :: words)) = none := by
  have hnone : ∀ entry ∈ commandMap, ("SET_PID_ALL".toList.isPrefixOf entry.1.toList) = false := by
    decide +kernel
  cases hlookup : lookup (joined ("SET_PID".toList :: "ALL".toList :: words)) with
  | none => rfl
  | some type =>
    obtain ⟨entry, hentry, hname⟩ := mem_of_lookup hlookup
    have hjoined : joined ("SET_PID".toList :: "ALL".toList :: words) =
        "SET_PID_ALL".toList ++ words.flatMap fun word => '_' :: upper word := by
      have hstart : joined ["SET_PID".toList, "ALL".toList] = "SET_PID_ALL".toList := by decide +kernel
      rw [← hstart]
      exact joined_append (List.cons_ne_nil "SET_PID".toList ["ALL".toList]) words
    have hbegins : ("SET_PID_ALL".toList.isPrefixOf entry.1.toList) = true := by
      rw [hname, hjoined]
      exact List.isPrefixOf_iff_prefix.mpr (List.prefix_append _ _)
    rw [hnone entry hentry] at hbegins
    cases hbegins

/-- The gains of all heaters are read as they are. -/
theorem parseLine_setPid_all (motorCount : ℕ) {kp ki kd : List Char}
    (h : ∀ word ∈ [kp, ki, kd], IsWord isSeparator word) :
    parseLine motorCount (unwords ["SET_PID".toList, "ALL".toList, kp, ki, kd]) =
      .ok ⟨.setPid, ["ALL".toList, kp, ki, kd], none⟩ := by
  have hwords : ∀ word ∈ ["SET_PID".toList, "ALL".toList, kp, ki, kd], IsWord isSeparator word := by
    intro word hword
    rcases List.mem_cons.mp hword with rfl | hword
    · exact isWord_toText .setPid
    rcases List.mem_cons.mp hword with rfl | hword
    · exact ⟨by decide, by decide⟩
    · exact h word hword
  have hspells : Spells isSeparator (unwords ["SET_PID".toList, "ALL".toList, kp, ki, kd])
      (["SET_PID".toList] ++ ["ALL".toList, kp, ki, kd]) := spells_unwords (by decide) hwords
  have hlookup : lookup (joined (["SET_PID".toList] ++ ["ALL".toList, kp, ki, kd].take 0)) = some .setPid := by
    change lookup (joined ["SET_PID".toList]) = some .setPid
    decide +kernel
  rw [parseLine_longest motorCount hspells (Nat.zero_le _) hlookup]
  · rfl
  · intro more hmore _
    obtain ⟨extra, rfl⟩ := Nat.exists_eq_add_of_lt hmore
    rw [Nat.zero_add, List.take_succ_cons]
    exact lookup_setPid_all

/-- An integer is read modulo 2^64, if it is less than that apart from its sign. -/
theorem parseIndex_showInt (value : ℤ) : parseIndex (showInt value) =
    if -2 ^ 64 < value ∧ value < 2 ^ 64 then some (value % 2 ^ 64).toNat else none := by
  unfold parseIndex stoull
  rw [dropWhile_showInt]
  by_cases hneg : value < 0
  · rw [showInt, if_pos hneg]
    simp only [splitSign, leadingNat_showNat, Option.bind_some, if_true]
    by_cases hfits : value.natAbs < 2 ^ 64
    · rw [if_pos hfits, if_pos (by omega), Option.map_some, UInt64.toNat_neg, UInt64.toNat_ofNat_of_lt' hfits]
      have hsize : UInt64.size = 2 ^ 64 := rfl
      rw [hsize]
      congr 1
      omega
    · rw [if_neg hfits, if_neg (by omega), Option.map_none]
  · rw [showInt, if_neg hneg, splitSign_showNat]
    simp only [leadingNat_showNat, Option.bind_some, Bool.false_eq_true, if_false]
    by_cases hfits : value.natAbs < 2 ^ 64
    · rw [if_pos hfits, if_pos (by omega), Option.map_some, UInt64.toNat_ofNat_of_lt' hfits]
      congr 1
      omega
    · rw [if_neg hfits, if_neg (by omega), Option.map_none]

namespace Onboard

open Heater.SystemController (setAt)

variable {heaters motors : ℕ} {δ : Type*} {platform : Platform ℚ δ} {s next : Onboard heaters motors δ}

/-- A line is acknowledged, and this is the state after it. -/
def Obeys (platform : Platform ℚ δ) (s : Onboard heaters motors δ) (line : List Char)
    (next : Onboard heaters motors δ) : Prop :=
  ∃ now request, s.handleCommandLine platform now line = some (.carriedOut request (some next))

/-- Lines are acknowledged in order. Whatever leaves the operator's overrides alone may happen around them. -/
inductive Acknowledged (platform : Platform ℚ δ) :
    Onboard heaters motors δ → List (List Char) → Onboard heaters motors δ → Prop where
  | done (s : Onboard heaters motors δ) : Acknowledged platform s [] s
  | line {s next after : Onboard heaters motors δ} {line : List Char} {rest : List (List Char)} :
      s.Obeys platform line next → Acknowledged platform next rest after →
      Acknowledged platform s (line :: rest) after
  | meanwhile {s other after : Onboard heaters motors δ} {lines : List (List Char)} :
      other.controller.overrides = s.controller.overrides → Acknowledged platform other lines after →
      Acknowledged platform s lines after

/-- A step of the control tick, or a motor start that writes zero to the heaters. -/
def ofTick : Heater.LoopEvent → Bool
  | .startTick _ _ _ | .regulate _ _ | .arbitrate _ _ | .output _ | .inhibitHeaters => true
  | _ => false

/-- The steps of the control tick leave the operator's overrides alone. -/
theorem step_overrides (ranking : Heater.Ranking ℚ) (c : Heater.SystemController heaters) {event : Heater.LoopEvent}
    (h : ofTick event = true) : (c.step ranking event).overrides = c.overrides := by
  cases event with
  | startTick linkLost dt now =>
    unfold Heater.SystemController.step
    cases c.stage <;> rfl
  | regulate phase snapshot =>
    unfold Heater.SystemController.step
    cases c.stage <;> rfl
  | arbitrate motionActive now =>
    unfold Heater.SystemController.step
    cases c.stage with
    | regulated context phase snapshot requested =>
      dsimp only [Heater.SystemController.arbitrateTick]
      split <;> rfl
    | _ => rfl
  | output motionActive =>
    unfold Heater.SystemController.step
    cases c.stage <;> rfl
  | inhibitHeaters => rfl
  | _ => cases h

/-- The control tick may take a step between two lines that are acknowledged. -/
theorem Acknowledged.tick {after : Onboard heaters motors δ} {lines : List (List Char)} (ranking : Heater.Ranking ℚ)
    {event : Heater.LoopEvent} (hevent : ofTick event = true)
    (h : Acknowledged platform { s with controller := s.controller.step ranking event } lines after) :
    Acknowledged platform s lines after := .meanwhile (step_overrides ranking _ hevent) h

/-- After no line the overrides are as they were. -/
theorem Acknowledged.overrides_nil {after : Onboard heaters motors δ} (h : Acknowledged platform s [] after) :
    after.controller.overrides = s.controller.overrides := by
  generalize hlines : ([] : List (List Char)) = lines at h
  induction h with
  | done s => rfl
  | line _ _ _ => cases hlines
  | meanwhile hsame _ ih => exact (ih hlines).trans hsame

/-- The first line is acknowledged with the same overrides in force, and then the others are. -/
theorem Acknowledged.cons {after : Onboard heaters motors δ} {line : List Char} {rest : List (List Char)}
    (h : Acknowledged platform s (line :: rest) after) : ∃ before next : Onboard heaters motors δ,
      before.controller.overrides = s.controller.overrides ∧ before.Obeys platform line next ∧
        Acknowledged platform next rest after := by
  generalize hlines : line :: rest = lines at h
  induction h with
  | done s => cases hlines
  | line hobeys hrest _ =>
    cases hlines
    exact ⟨_, _, rfl, hobeys, hrest⟩
  | meanwhile hsame _ ih =>
    obtain ⟨before, next, hbefore, hobeys, hrest⟩ := ih hlines
    exact ⟨before, next, hbefore.trans hsame, hobeys, hrest⟩

/-- Lines in two parts are acknowledged part by part. -/
theorem Acknowledged.append {after : Onboard heaters motors δ} {first second : List (List Char)}
    (h : Acknowledged platform s (first ++ second) after) :
    ∃ middle, Acknowledged platform s first middle ∧ Acknowledged platform middle second after := by
  induction first generalizing s with
  | nil => exact ⟨s, .done s, h⟩
  | cons line rest ih =>
    obtain ⟨before, next, hbefore, hobeys, hrest⟩ := h.cons
    obtain ⟨middle, hmiddle, hsecond⟩ := ih hrest
    exact ⟨middle, .meanwhile hbefore (.line hobeys hmiddle), hsecond⟩

/-- Lines that are acknowledged after others. -/
theorem Acknowledged.trans {middle after : Onboard heaters motors δ} {first second : List (List Char)}
    (h : Acknowledged platform s first middle) (hsecond : Acknowledged platform middle second after) :
    Acknowledged platform s (first ++ second) after := by
  induction h with
  | done s => exact hsecond
  | line hobeys _ ih => exact .line hobeys (ih hsecond)
  | meanwhile hsame _ ih => exact .meanwhile hsame (ih hsecond)

/-- A line that sets a heater passes its checks and has its effect. -/
theorem Obeys.heater {line : List Char} {parsed : Command} {token : Option (List Char)}
    {command : Heater.Command} (h : s.Obeys platform line next) (hparse : parseLine motors line = .ok parsed)
    (hrequest : s.request parsed = some (.ok (.heater token command))) :
    s.controller.check s.motionHeld command = .ok () ∧ ∃ now, next.controller.overrides =
      (Heater.SystemController.effect { s.controller.enter command with pending := some command } now
        command).overrides := by
  obtain ⟨now, request, hanswer⟩ := h
  unfold handleCommandLine asked at hanswer
  rw [hparse] at hanswer
  dsimp only at hanswer
  split at hanswer
  · cases hanswer
  · cases hanswer
  case h_3 asked hasked =>
    split at hasked
    · cases hasked
    rw [hrequest] at hasked
    obtain rfl := Except.ok.inj (Option.some.inj hasked)
    unfold carryOut at hanswer
    dsimp only at hanswer
    cases hreceive : s.controller.receive s.motionHeld command with
    | error text =>
      rw [hreceive] at hanswer
      cases hanswer
    | ok received =>
      rw [hreceive] at hanswer
      dsimp only at hanswer
      obtain ⟨⟨⟩, hcheck, hreceived⟩ := Checked.map_ok hreceive
      refine ⟨hcheck, now, ?_⟩
      cases hcarried : received.carryOut now command with
      | error text =>
        rw [hcarried] at hanswer
        cases hanswer
      | ok carried =>
        rw [hcarried] at hanswer
        obtain ⟨⟨⟩, -, heffect⟩ := Checked.map_ok hcarried
        cases hanswer
        rw [hreceived, heffect]

/-- What the onboard reads as gains, if all three are numbers. -/
def readGains (kp ki kd : List Char) : Option Heater.PidGains := do
  let p ← wholeDouble kp
  let i ← wholeDouble ki
  let d ← wholeDouble kd
  return ⟨p, i, d⟩

/-- Gains that pass their checks were read. -/
theorem readGains_of_check {c : Heater.SystemController heaters} {motionHeld all : Bool} {index : Option ℕ}
    {kp ki kd : List Char}
    (h : c.check motionHeld (.setPid all index (wholeDouble kp) (wholeDouble ki) (wholeDouble kd)) = .ok ()) :
    readGains kp ki kd =
      some ⟨(wholeDouble kp).getD 0, (wholeDouble ki).getD 0, (wholeDouble kd).getD 0⟩ := by
  unfold Heater.SystemController.check at h
  dsimp only at h
  split at h
  case h_1 p i d hp hi hd => simp [readGains, hp, hi, hd]
  case h_2 => cases h

/-- A target that passes its checks was read. -/
theorem exists_target_of_check {c : Heater.SystemController heaters} {motionHeld : Bool} {index : Option ℕ}
    {target : Option ℚ} (h : c.check motionHeld (.setTempTarget index target) = .ok ()) :
    ∃ value, target = some value := by
  obtain ⟨_, -, hrest⟩ := Checked.bind_ok h
  cases target with
  | some value => exact ⟨value, rfl⟩
  | none => cases index <;> cases hrest

/-- A word with a digit does not mean all heaters. -/
theorem upper_ne_all {index : List Char} (hdigit : ∃ digit ∈ index, digit.isDigit = true) :
    upper index ≠ "ALL".toList := by
  intro hall
  obtain ⟨digit, hdigit, hisDigit⟩ := hdigit
  have hin : digit ∈ "ALL".toList := by
    rw [← hall]
    exact List.mem_map.mpr ⟨digit, hdigit, toUpper_of_isDigit hisDigit⟩
  have hletters : ∀ c ∈ "ALL".toList, c.isDigit = false := forall_mem_of_all (by decide)
  rw [hletters digit hin] at hisDigit
  cases hisDigit

/-- The gains of one heater are read as they are. -/
theorem parseLine_setPid (motorCount : ℕ) {index kp ki kd : List Char}
    (h : ∀ word ∈ [index, kp, ki, kd], IsWord isSeparator word) (hdigit : ∃ digit ∈ index, digit.isDigit = true) :
    parseLine motorCount (unwords ["SET_PID".toList, index, kp, ki, kd]) =
      .ok ⟨.setPid, [index, kp, ki, kd], none⟩ := by
  have hnormal : normalizeArgs .setPid [index, kp, ki, kd] = [index, kp, ki, kd] :=
    congrArg (· :: [kp, ki, kd]) (if_neg (upper_ne_all hdigit))
  refine (parseLine_unwords motorCount .setPid h hdigit).trans ?_
  change (Except.ok ⟨.setPid, normalizeArgs .setPid [index, kp, ki, kd], none⟩ : Except String Command) = _
  rw [hnormal]

/-- The gains of one heater are a request to this heater. -/
theorem request_setPid (s : Onboard heaters motors δ) {index kp ki kd : List Char}
    (hdigit : ∃ digit ∈ index, digit.isDigit = true) :
    s.request ⟨.setPid, [index, kp, ki, kd], none⟩ = some (.ok (.heater (some index)
      (.setPid false (parseIndex index) (wholeDouble kp) (wholeDouble ki) (wholeDouble kd)))) := by
  have hnot := upper_ne_all hdigit
  refine if_neg ?_
  rintro (rfl | rfl)
  · exact hnot (by decide)
  · exact hnot (by decide)

/-- Gains of all heaters are in force for all heaters. -/
theorem Obeys.setPid_all {kp ki kd : List Char} (hwords : ∀ word ∈ [kp, ki, kd], IsWord isSeparator word)
    (h : s.Obeys platform (unwords ["SET_PID".toList, "ALL".toList, kp, ki, kd]) next) :
    ∃ gains, readGains kp ki kd = some gains ∧ next.controller.overrides =
      { s.controller.overrides with pidOverride := some gains, pidOverrides := fun _ => some gains } := by
  obtain ⟨hcheck, now, hafter⟩ := h.heater (parseLine_setPid_all motors hwords) rfl
  exact ⟨_, readGains_of_check hcheck, hafter⟩

/-- Gains of one heater are in force for this heater. -/
theorem Obeys.setPid {index kp ki kd : List Char} (hwords : ∀ word ∈ [index, kp, ki, kd], IsWord isSeparator word)
    (hdigit : ∃ digit ∈ index, digit.isDigit = true)
    (h : s.Obeys platform (unwords ["SET_PID".toList, index, kp, ki, kd]) next) :
    ∃ heater < heaters, parseIndex index = some heater ∧ ∃ gains, readGains kp ki kd = some gains ∧
      next.controller.overrides = { s.controller.overrides with
        pidOverrides := setAt s.controller.overrides.pidOverrides (some heater) (some gains) } := by
  obtain ⟨hcheck, now, hafter⟩ := h.heater (parseLine_setPid motors hwords hdigit) (s.request_setPid hdigit)
  obtain ⟨heater, hlt, hindex⟩ := namedHeater_lt (checkBeforeHeater_of_check hcheck) rfl
  refine ⟨heater, hlt, hindex, _, readGains_of_check hcheck, ?_⟩
  rw [← hindex]
  exact hafter

/-- A target of one heater is in force, and no duty of this heater or of all heaters is any more. -/
theorem Obeys.setTempTarget {index target : List Char} (hwords : ∀ word ∈ [index, target], IsWord isSeparator word)
    (hdigit : ∃ digit ∈ index, digit.isDigit = true)
    (h : s.Obeys platform (unwords ["SET_TEMP_TARGET".toList, index, target]) next) :
    ∃ heater < heaters, parseIndex index = some heater ∧ ∃ value, wholeDouble target = some value ∧
      next.controller.overrides = { s.controller.overrides with
        heatersOff := false
        benchOpenLoopHeaters := false
        allHeatersOverride := none
        heaterDutyOverrides := setAt s.controller.overrides.heaterDutyOverrides (some heater) none
        tempTargetsC := setAt s.controller.overrides.tempTargetsC (some heater) (some value) } := by
  obtain ⟨hcheck, now, hafter⟩ := h.heater (parseLine_unwords motors .setTempTarget hwords hdigit) rfl
  obtain ⟨heater, hlt, hindex⟩ := namedHeater_lt (checkBeforeHeater_of_check hcheck) rfl
  obtain ⟨value, hvalue⟩ := exists_target_of_check hcheck
  refine ⟨heater, hlt, hindex, value, hvalue, ?_⟩
  rw [← hindex, ← hvalue]
  exact hafter

/-- A heater whose target is cleared has none, and all else is as it was. -/
theorem Obeys.clearTempTarget {index : List Char} (hword : IsWord isSeparator index)
    (hdigit : ∃ digit ∈ index, digit.isDigit = true)
    (h : s.Obeys platform (unwords ["CLEAR_TEMP_TARGET".toList, index]) next) :
    ∃ heater < heaters, parseIndex index = some heater ∧ next.controller.overrides = { s.controller.overrides with
      tempTargetsC := setAt s.controller.overrides.tempTargetsC (some heater) none } := by
  have hparse := parseLine_unwords motors .clearTempTarget (List.forall_mem_singleton.mpr hword) hdigit
  obtain ⟨hcheck, now, hafter⟩ := h.heater hparse rfl
  obtain ⟨heater, hlt, hindex⟩ := namedHeater_lt (checkBeforeHeater_of_check hcheck) rfl
  refine ⟨heater, hlt, hindex, ?_⟩
  rw [← hindex]
  exact hafter

/-- The onboard hears commands in RUN mode, no tune runs, and every heater has a valid temperature. -/
structure Ready (s : Onboard heaters motors δ) : Prop where
  heard : s.transmitEnabled = true
  run : s.controller.mode = .run
  untuned : s.controller.pidTuner.active = false
  measured : ∀ i : Fin heaters, s.controller.temperatureFault i = none

/-- The onboard with other overrides and no command under way. -/
def withOverrides (s : Onboard heaters motors δ) (overrides : Heater.ControlOverrides heaters) :
    Onboard heaters motors δ :=
  { s with controller := { s.controller with overrides := overrides, pending := none } }

/-- Whatever the overrides, the onboard stays ready. -/
theorem Ready.withOverrides (h : s.Ready) (overrides : Heater.ControlOverrides heaters) :
    (s.withOverrides overrides).Ready := ⟨h.heard, h.run, h.untuned, h.measured⟩

/-- A line is acknowledged if its command passes its checks, with the effect of the command. -/
theorem obeys_heater (platform : Platform ℚ δ) {line : List Char} {parsed : Command} {token : Option (List Char)}
    {command : Heater.Command} (hheard : s.transmitEnabled = true) (hparse : parseLine motors line = .ok parsed)
    (hrequest : s.request parsed = some (.ok (.heater token command)))
    (hcheck : s.controller.check s.motionHeld command = .ok ())
    (hlocked : Heater.SystemController.checkLocked { s.controller.enter command with pending := some command }
      command = .ok ()) :
    s.Obeys platform line { s with controller := { Heater.SystemController.effect
      { s.controller.enter command with pending := some command } 0 command with pending := none } } := by
  refine ⟨0, .heater token command, ?_⟩
  have hasked : s.asked line = some (.ok (.heater token command)) := by
    unfold asked
    rw [hparse]
    dsimp only
    rw [if_neg fun hsilent => absurd (hheard.symm.trans hsilent.1) (by decide), hrequest]
  have hreceive : s.controller.receive s.motionHeld command =
      .ok { s.controller.enter command with pending := some command } := by
    rw [Heater.SystemController.receive, hcheck]
    rfl
  unfold handleCommandLine carryOut
  rw [hasked]
  dsimp only
  rw [hreceive]
  dsimp only
  rw [Heater.SystemController.carryOut, hlocked]
  rfl

/-- None of the gains is negative. -/
def NotNegative (gains : Heater.PidGains) : Prop := 0 ≤ gains.kp ∧ 0 ≤ gains.ki ∧ 0 ≤ gains.kd

/-- Gains that are numbers and not negative pass their checks. -/
theorem check_setPid {c : Heater.SystemController heaters} {motionHeld all : Bool} {index : Option ℕ}
    {kp ki kd : List Char} {gains : Heater.PidGains} (hread : readGains kp ki kd = some gains)
    (hgains : NotNegative gains) (hindex : all = false → ∃ heater < heaters, index = some heater) :
    c.check motionHeld (.setPid all index (wholeDouble kp) (wholeDouble ki) (wholeDouble kd)) = .ok () := by
  obtain ⟨p, hp, hread⟩ := Option.bind_eq_some_iff.mp hread
  obtain ⟨i, hi, hread⟩ := Option.bind_eq_some_iff.mp hread
  obtain ⟨d, hd, hread⟩ := Option.bind_eq_some_iff.mp hread
  obtain rfl := Option.some.inj hread
  obtain ⟨hkp, hki, hkd⟩ := hgains
  have hnot : ¬ (p < 0 ∨ i < 0 ∨ d < 0) :=
    not_or.mpr ⟨not_lt.mpr hkp, not_or.mpr ⟨not_lt.mpr hki, not_lt.mpr hkd⟩⟩
  rw [hp, hi, hd]
  unfold Heater.SystemController.check
  dsimp only
  rw [if_neg hnot]
  cases all with
  | true => rfl
  | false =>
    obtain ⟨heater, hlt, rfl⟩ := hindex rfl
    exact if_pos hlt

/-- Gains of all heaters are acknowledged. -/
theorem Ready.setPid_all (h : s.Ready) (platform : Platform ℚ δ) {kp ki kd : List Char}
    {gains : Heater.PidGains} (hwords : ∀ word ∈ [kp, ki, kd], IsWord isSeparator word)
    (hread : readGains kp ki kd = some gains) (hgains : NotNegative gains) :
    s.Obeys platform (unwords ["SET_PID".toList, "ALL".toList, kp, ki, kd]) (s.withOverrides
      { s.controller.overrides with pidOverride := some gains, pidOverrides := fun _ => some gains }) := by
  have hcheck : s.controller.check s.motionHeld
      (.setPid true none (wholeDouble kp) (wholeDouble ki) (wholeDouble kd)) = .ok () :=
    check_setPid hread hgains (fun hone => by cases hone)
  rw [← hread, readGains_of_check hcheck]
  exact obeys_heater platform h.heard (parseLine_setPid_all motors hwords) rfl hcheck rfl

/-- Gains of one heater are acknowledged. -/
theorem Ready.setPid (h : s.Ready) (platform : Platform ℚ δ) {index kp ki kd : List Char} {heater : ℕ}
    {gains : Heater.PidGains} (hwords : ∀ word ∈ [index, kp, ki, kd], IsWord isSeparator word)
    (hdigit : ∃ digit ∈ index, digit.isDigit = true) (hindex : parseIndex index = some heater)
    (hlt : heater < heaters) (hread : readGains kp ki kd = some gains) (hgains : NotNegative gains) :
    s.Obeys platform (unwords ["SET_PID".toList, index, kp, ki, kd]) (s.withOverrides
      { s.controller.overrides with
        pidOverrides := setAt s.controller.overrides.pidOverrides (some heater) (some gains) }) := by
  have hcheck : s.controller.check s.motionHeld
      (.setPid false (parseIndex index) (wholeDouble kp) (wholeDouble ki) (wholeDouble kd)) = .ok () :=
    check_setPid hread hgains fun _ => ⟨heater, hlt, hindex⟩
  rw [← hread, ← hindex, readGains_of_check hcheck]
  exact obeys_heater platform h.heard (parseLine_setPid motors hwords hdigit) (s.request_setPid hdigit) hcheck rfl

/-- A target within the limits is acknowledged. -/
theorem Ready.setTempTarget (h : s.Ready) (platform : Platform ℚ δ) {index target : List Char} {value : ℚ}
    {heater : ℕ} (hwords : ∀ word ∈ [index, target], IsWord isSeparator word)
    (hdigit : ∃ digit ∈ index, digit.isDigit = true) (hindex : parseIndex index = some heater)
    (hlt : heater < heaters) (hvalue : wholeDouble target = some value)
    (hmin : s.controller.config.targetMinC ≤ value) (hmax : value ≤ s.controller.config.targetMaxC) :
    s.Obeys platform (unwords ["SET_TEMP_TARGET".toList, index, target]) (s.withOverrides
      { s.controller.overrides with
        heatersOff := false
        benchOpenLoopHeaters := false
        allHeatersOverride := none
        heaterDutyOverrides := setAt s.controller.overrides.heaterDutyOverrides (some heater) none
        tempTargetsC := setAt s.controller.overrides.tempTargetsC (some heater) (some value) }) := by
  have hheat : s.controller.checkHeatCommand = .ok () := by
    rw [Heater.SystemController.checkHeatCommand, if_neg (not_not.mpr h.run), h.untuned]
    rfl
  have hrange : ¬ (value < s.controller.config.targetMinC ∨ s.controller.config.targetMaxC < value) :=
    not_or.mpr ⟨not_lt.mpr hmin, not_lt.mpr hmax⟩
  have hcheck : s.controller.check s.motionHeld (.setTempTarget (parseIndex index) (wholeDouble target)) =
      .ok () := by
    have hmeasured := h.measured ⟨heater, hlt⟩
    dsimp only at hmeasured
    rw [hindex, hvalue, Heater.SystemController.check, hheat]
    simp only [Heater.SystemController.checkRange, if_neg hrange, if_neg (not_le.mpr hlt), hmeasured]
    rfl
  rw [← hvalue, ← hindex]
  exact obeys_heater platform h.heard (parseLine_unwords motors .setTempTarget hwords hdigit) rfl hcheck rfl

/-- Clearing a target is acknowledged. -/
theorem Ready.clearTempTarget (h : s.Ready) (platform : Platform ℚ δ) {index : List Char} {heater : ℕ}
    (hword : IsWord isSeparator index) (hdigit : ∃ digit ∈ index, digit.isDigit = true)
    (hindex : parseIndex index = some heater) (hlt : heater < heaters) :
    s.Obeys platform (unwords ["CLEAR_TEMP_TARGET".toList, index]) (s.withOverrides
      { s.controller.overrides with
        tempTargetsC := setAt s.controller.overrides.tempTargetsC (some heater) none }) := by
  have hcheck : s.controller.check s.motionHeld (.clearTempTarget (parseIndex index)) = .ok () := by
    rw [hindex]
    exact if_pos hlt
  rw [← hindex]
  exact obeys_heater platform h.heard
    (parseLine_unwords motors .clearTempTarget (List.forall_mem_singleton.mpr hword) hdigit) rfl hcheck rfl

end Onboard

end Coatheal.CommandLine
