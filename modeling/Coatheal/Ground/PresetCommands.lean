import Coatheal.Command.HeaterLines
import Coatheal.Ground.ThermalPresets

/-!
# The commands of a preset

`ThermalPreset.commands` of `thermal_presets.py`, and what the onboard has in force once it has
acknowledged them: the gains, the targets and the duties that earlier commands left behind. The gains
and the targets are the preset's to the digits that are printed. A target takes the duty overrides of its
channel and of all channels away, but a cleared target takes none, so that a channel without a target
may keep heating.
-/

namespace Coatheal.Ground.ThermalPresets

open Library CommandLine
open Library.PyText (Double showFixed)
open Library.Text (IsWord showInt showNat unwords wholeDouble formatG formatG_numeral isNumeral)

/-- A number with at most six significant digits, `.6g`. -/
def showGeneral (value : Double) : List Char :=
  match value.magnitude with
  | .nan => "nan".toList
  | .infinite => if value.negative then "-inf".toList else "inf".toList
  | .finite size => if value.negative then '-' :: formatG size else formatG size

/-- `sorted(self.pid_channels.items())`; no two channels are the same, so that they alone are compared. -/
def ThermalPreset.sortedChannels (preset : ThermalPreset) : List (ℤ × Gains) :=
  preset.pidChannels.entries.mergeSort fun one two => one.1 ≤ two.1

/-- The line with the gains of all channels or of one. -/
def setPidLine (index : List Char) (gains : Gains) : List Char :=
  unwords ["SET_PID".toList, index, showGeneral gains.kp, showGeneral gains.ki, showGeneral gains.kd]

/-- The line with the gains of a channel. -/
def channelLine (channel : ℤ × Gains) : Except PyError (List Char) := do
  let index ← strInt channel.1
  return setPidLine index channel.2

/-- The line that sets or clears a target. -/
def targetLine : Option Double × ℕ → List Char
  | (none, index) => unwords ["CLEAR_TEMP_TARGET".toList, showNat index]
  | (some target, index) => unwords ["SET_TEMP_TARGET".toList, showNat index, showFixed 3 target]

/-- `ThermalPreset.commands`. -/
def ThermalPreset.commands (preset : ThermalPreset) : Except PyError (List (List Char)) := do
  let channels ← preset.sortedChannels.mapM channelLine
  return setPidLine "ALL".toList preset.pidAll :: (channels ++ preset.targetsC.zipIdx.map targetLine)

/-- The gains of a channel: its own, or else those of all channels. -/
def ThermalPreset.gainsOf (preset : ThermalPreset) (channel : ℕ) : Gains :=
  (preset.pidChannels.get? channel).getD preset.pidAll

/-- Gains to the digits that are printed, as the onboard reads them. -/
def Gains.printed (gains : Gains) : Option Heater.PidGains :=
  Onboard.readGains (showGeneral gains.kp) (showGeneral gains.ki) (showGeneral gains.kd)

/-- A target to the digits that are printed, as the onboard reads it. -/
def printedTarget (target : Double) : Option ℚ := wholeDouble (showFixed 3 target)

/-- A character of a printed number is no separator. -/
theorem isSeparator_of_number {c : Char} (h : c.isDigit = true ∨ c ∈ ['-', '+', '.', 'e', 'i', 'n', 'f', 'a']) :
    isSeparator c = false := by
  rcases h with hdigit | hmark
  · unfold isSeparator
    rw [(Text.isDigit_plain hdigit).1, Bool.or_false, decide_eq_false_iff_not]
    rintro rfl
    exact absurd hdigit (by decide)
  · have hall : ∀ c ∈ ['-', '+', '.', 'e', 'i', 'n', 'f', 'a'], isSeparator c = false :=
      Text.forall_mem_of_all (by decide)
    exact hall c hmark

/-- Characters of printed numbers make a word. -/
theorem isWord_of_number {text : List Char} (hne : text ≠ [])
    (h : ∀ c ∈ text, c.isDigit = true ∨ c ∈ ['-', '+', '.', 'e', 'i', 'n', 'f', 'a']) :
    IsWord isSeparator text := by
  refine ⟨hne, List.all_eq_true.mpr fun c hc => ?_⟩
  rw [isSeparator_of_number (h c hc)]
  rfl

/-- A number in its default form is a word. -/
theorem isWord_formatG (x : ℚ) : IsWord isSeparator (formatG x) := by
  refine isWord_of_number ?_ fun c hc => ?_
  · by_cases hx : x = 0
    · subst hx
      decide +kernel
    · obtain ⟨c, hhead, -⟩ := @Text.head?_showSignificand (Text.significand x).1 (Text.significand x).2
      intro hnil
      rw [Text.formatG_eq hx] at hnil
      split at hnil
      · cases hnil
      · rw [hnil] at hhead
        cases hhead
  · rcases Bool.or_eq_true_iff.mp (formatG_numeral hc) with hdigit | hmark
    · exact Or.inl hdigit
    · have hmore : ∀ c ∈ ['-', '+', '.', 'e'], c ∈ ['-', '+', '.', 'e', 'i', 'n', 'f', 'a'] :=
        Text.forall_mem_of_all (by decide)
      exact Or.inr (hmore c (of_decide_eq_true hmark))

/-- A printed gain is a word. -/
theorem isWord_showGeneral (value : Double) : IsWord isSeparator (showGeneral value) := by
  unfold showGeneral
  split
  · exact ⟨by decide, by decide⟩
  · split
    · exact ⟨by decide, by decide⟩
    · exact ⟨by decide, by decide⟩
  case h_3 size _ =>
    split
    · refine ⟨List.cons_ne_nil _ _, ?_⟩
      rw [List.all_cons, (isWord_formatG size).2]
      decide
    · exact isWord_formatG size

/-- A printed target is a word. -/
theorem isWord_showFixed (decimals : ℕ) (value : Double) : IsWord isSeparator (showFixed decimals value) := by
  refine isWord_of_number ?_ fun c hc => ?_
  · have hsize : PyText.showMagnitude decimals value.magnitude ≠ [] := by
      unfold PyText.showMagnitude
      split
      · decide
      · decide
      · exact List.append_ne_nil_of_left_ne_nil (Text.showNat_ne_nil _) _
    unfold showFixed
    split
    · exact List.cons_ne_nil _ _
    · exact hsize
  · rcases Bool.or_eq_true_iff.mp (PyText.showFixed_chars hc) with hdigit | hmark
    · exact Or.inl hdigit
    · have hmore : ∀ c ∈ ['-', '.', 'i', 'n', 'f', 'a'], c ∈ ['-', '+', '.', 'e', 'i', 'n', 'f', 'a'] :=
        Text.forall_mem_of_all (by decide)
      exact Or.inr (hmore c (of_decide_eq_true hmark))

/-- A size to three decimals. -/
def thousandths (size : ℚ≥0) : ℚ := (Text.roundHalfEven ((size : ℚ) * 1000) : ℚ) / 1000

/-- The digits of a finite target are read as the double nearest to its three decimals, with its sign. -/
theorem printedTarget_finite (negative : Bool) (size : ℚ≥0) : printedTarget ⟨negative, .finite size⟩ =
    if Text.inDoubleRange (Text.nearestDouble (thousandths size)) then
      some (if negative then -Text.nearestDouble (thousandths size) else Text.nearestDouble (thousandths size))
    else none := by
  have hread := @PyText.wholeDecimal_padded 3 (by decide) (Text.roundHalfEven ((size : ℚ) * 10 ^ 3)).toNat
  have hcast : ((Text.roundHalfEven ((size : ℚ) * 10 ^ 3)).toNat : ℚ) / 10 ^ 3 = thousandths size := by
    have hnonneg := @PyText.roundHalfEven_nonneg ((size : ℚ) * 10 ^ 3) (by positivity)
    have hint : ((Text.roundHalfEven ((size : ℚ) * 10 ^ 3)).toNat : ℚ) =
        (Text.roundHalfEven ((size : ℚ) * 10 ^ 3) : ℚ) := by
      exact_mod_cast Int.toNat_of_nonneg hnonneg
    rw [hint, thousandths]
    norm_num
  have hspace : (showFixed 3 ⟨negative, .finite size⟩).dropWhile Text.isSpace =
      showFixed 3 ⟨negative, .finite size⟩ := by
    obtain ⟨hne, hword⟩ := isWord_showFixed 3 ⟨negative, .finite size⟩
    obtain ⟨first, rest, hshow⟩ := List.exists_cons_of_ne_nil hne
    rw [hshow, List.all_cons, Bool.and_eq_true, Bool.not_eq_true'] at hword
    rw [hshow]
    exact List.dropWhile_cons_of_neg (Bool.not_eq_true _ ▸ (Bool.or_eq_false_iff.mp hword.1).2)
  unfold printedTarget wholeDouble
  rw [hspace, PyText.splitSign_showFixed]
  change (Text.wholeDecimal (showNat _ ++ '.' :: PyText.padded 3 _)).bind _ = _
  rw [hread, hcast]
  rfl

/-- What is read of a target is off by half a thousandth at most, and by a rounding of a double. -/
theorem abs_printedTarget_sub_le {negative : Bool} {size : ℚ≥0} {value : ℚ}
    (h : printedTarget ⟨negative, .finite size⟩ = some value) :
    |value - (if negative then -(size : ℚ) else size)| ≤ 1 / 2000 + thousandths size / 2 ^ 53 := by
  rw [printedTarget_finite] at h
  split at h
  case isFalse => cases h
  case isTrue =>
    have hround := Text.abs_roundHalfEven_sub_le ((size : ℚ) * 1000)
    have hthousandths : |thousandths size - (size : ℚ)| ≤ 1 / 2000 := by
      have hscaled : thousandths size - (size : ℚ) =
          ((Text.roundHalfEven ((size : ℚ) * 1000) : ℚ) - (size : ℚ) * 1000) / 1000 := by
        rw [thousandths]
        ring
      rw [hscaled, abs_div, abs_of_pos (show (0 : ℚ) < 1000 by norm_num)]
      linarith
    have hnonneg : 0 ≤ thousandths size := by
      have hint := @PyText.roundHalfEven_nonneg ((size : ℚ) * 1000) (by positivity)
      have hcast : (0 : ℚ) ≤ (Text.roundHalfEven ((size : ℚ) * 1000) : ℚ) := by exact_mod_cast hint
      exact div_nonneg hcast (by norm_num)
    have hdouble := Text.abs_nearestDouble_sub_le (thousandths size)
    rw [abs_of_nonneg hnonneg] at hdouble
    have hsum : |Text.nearestDouble (thousandths size) - (size : ℚ)| ≤ 1 / 2000 + thousandths size / 2 ^ 53 :=
      (abs_sub_le _ (thousandths size) _).trans (by linarith)
    obtain rfl := Option.some.inj h
    cases negative with
    | false => exact hsum
    | true =>
      have hswap : -Text.nearestDouble (thousandths size) - -(size : ℚ) =
          -(Text.nearestDouble (thousandths size) - (size : ℚ)) := by ring
      simp only [if_true]
      rwa [hswap, abs_neg]

/-- A target of half a degree. -/
theorem abs_printedTarget_sub_le_half : |(1 / 2 : ℚ) - (1 / 2 : ℚ≥0)| ≤ 1 / 2000 + thousandths (1 / 2) / 2 ^ 53 :=
  @abs_printedTarget_sub_le false (1 / 2) (1 / 2) (by decide +kernel)

/-- A printed index is a word with a digit. -/
theorem isWord_showInt (value : ℤ) :
    IsWord isSeparator (showInt value) ∧ ∃ digit ∈ showInt value, digit.isDigit = true := by
  have hdigit : ∃ digit ∈ showInt value, digit.isDigit = true := by
    obtain ⟨digit, rest, hshow⟩ := List.exists_cons_of_ne_nil (Text.showNat_ne_nil value.natAbs)
    have hfirst : digit ∈ showNat value.natAbs := hshow ▸ List.mem_cons_self
    refine ⟨digit, ?_, Text.showNat_digits hfirst⟩
    unfold showInt
    split
    · exact List.mem_cons_of_mem _ hfirst
    · exact hfirst
  refine ⟨isWord_of_number ?_ fun c hc => ?_, hdigit⟩
  · obtain ⟨digit, hin, -⟩ := hdigit
    exact List.ne_nil_of_mem hin
  · rcases Text.showInt_chars hc with hdigit | rfl
    · exact Or.inl hdigit
    · exact Or.inr (by decide)

/-- The printed gains are words. -/
theorem isWord_gains (gains : Gains) :
    ∀ word ∈ [showGeneral gains.kp, showGeneral gains.ki, showGeneral gains.kd], IsWord isSeparator word := by
  intro word hword
  simp only [List.mem_cons, List.not_mem_nil, or_false] at hword
  rcases hword with rfl | rfl | rfl
  all_goals exact isWord_showGeneral _

/-- The words of the line for a channel. -/
theorem isWord_channel (channel : ℤ × Gains) : ∀ word ∈ [showInt channel.1, showGeneral channel.2.kp,
    showGeneral channel.2.ki, showGeneral channel.2.kd], IsWord isSeparator word := by
  intro word hin
  rcases List.mem_cons.mp hin with rfl | hin
  · exact (isWord_showInt channel.1).1
  · exact isWord_gains channel.2 word hin

/-- The words of the line that sets a target. -/
theorem isWord_target {index : List Char} (h : IsWord isSeparator index) (target : Double) :
    ∀ word ∈ [index, showFixed 3 target], IsWord isSeparator word := by
  intro word hin
  rcases List.mem_cons.mp hin with rfl | hin
  · exact h
  · rw [List.mem_singleton.mp hin]
    exact isWord_showFixed 3 target

/-- The line for a channel that can be printed. -/
theorem eq_of_channelLine {channel : ℤ × Gains} {line : List Char} (h : channelLine channel = .ok line) :
    line = setPidLine (showInt channel.1) channel.2 := by
  obtain ⟨index, hindex, hline⟩ := Checked.bind_ok h
  obtain rfl := Except.ok.inj hline
  unfold strInt at hindex
  split at hindex
  · cases hindex
  · rw [Except.ok.inj hindex]

/-- A natural number is printed as an integer. -/
theorem showInt_natCast (value : ℕ) : showInt value = showNat value := by
  unfold showInt
  rw [if_neg (not_lt.mpr (Int.natCast_nonneg value)), Int.natAbs_natCast]

/-- An index that is not negative is read as it is. -/
theorem eq_of_parseIndex_showNat {index heater : ℕ} (h : parseIndex (showNat index) = some heater) :
    heater = index := by
  rw [← showInt_natCast, parseIndex_showInt] at h
  split at h
  case isTrue hfits =>
    have hvalue := Option.some.inj h
    omega
  case isFalse => cases h

/-- The gains that are in force for a channel after the lines of single channels: those of the last that is read as
this channel. -/
def lastFor (heater : ℕ) : List (ℤ × Gains) → Option Gains
  | [] => none
  | channel :: rest =>
    (lastFor heater rest).or (if parseIndex (showInt channel.1) = some heater then some channel.2 else none)

/-- No channel of the list is read as this one. -/
theorem lastFor_eq_none {heater : ℕ} {channels : List (ℤ × Gains)}
    (h : ∀ channel ∈ channels, parseIndex (showInt channel.1) ≠ some heater) :
    lastFor heater channels = none := by
  induction channels with
  | nil => rfl
  | cons channel rest ih =>
    rw [lastFor, ih fun other hin => h other (List.mem_cons_of_mem _ hin), if_neg (h channel List.mem_cons_self)]
    rfl

/-- In a sorted list the largest channel that is read as this one is the last. -/
theorem lastFor_eq_some {heater : ℕ} {channels : List (ℤ × Gains)}
    (hsorted : channels.Pairwise fun one two => one.1 < two.1) {key : ℤ} {gains : Gains} (hin : (key, gains) ∈ channels) (hread : parseIndex (showInt key) = some heater)
    (hlargest : ∀ channel ∈ channels, parseIndex (showInt channel.1) = some heater → channel.1 ≤ key) :
    lastFor heater channels = some gains := by
  induction channels with
  | nil => cases hin
  | cons channel rest ih =>
    obtain ⟨hfirst, hrest⟩ := List.pairwise_cons.mp hsorted
    rcases List.mem_cons.mp hin with rfl | hin
    · have hnone : lastFor heater rest = none := by
        refine lastFor_eq_none fun other hother hsame => ?_
        exact absurd (hlargest other (List.mem_cons_of_mem _ hother) hsame) (not_le.mpr (hfirst other hother))
      rw [lastFor, hnone, if_pos hread]
      rfl
    · rw [lastFor, ih hrest hin fun other hother => hlargest other (List.mem_cons_of_mem _ hother)]
      rfl

variable {heaters motors : ℕ} {δ : Type*} {platform : Motion.Platform ℚ δ}
  {s next after : Onboard heaters motors δ}

/-- The lines of single channels set the gains of the channels that they are read as, and nothing else. -/
theorem channels_overrides {channels : List (ℤ × Gains)} {lines : List (List Char)}
    (hlines : channels.mapM channelLine = .ok lines) (h : Onboard.Acknowledged platform s lines after) :
    (∀ channel ∈ channels, ∃ heater < heaters, parseIndex (showInt channel.1) = some heater) ∧
      after.controller.overrides =
        { s.controller.overrides with pidOverrides := after.controller.overrides.pidOverrides } ∧
      ∀ i : Fin heaters,
        (lastFor i channels = none →
          after.controller.overrides.pidOverrides i = s.controller.overrides.pidOverrides i) ∧
        ∀ gains, lastFor i channels = some gains → ∃ printed, gains.printed = some printed ∧
          after.controller.overrides.pidOverrides i = some printed := by
  induction channels generalizing s lines with
  | nil =>
    obtain rfl := Except.ok.inj hlines
    have hsame := h.overrides_nil
    rw [hsame]
    exact ⟨fun channel hin => absurd hin List.not_mem_nil, rfl, fun i => ⟨fun _ => rfl, fun gains hnone => by
      cases hnone⟩⟩
  | cons channel rest ih =>
    rw [List.mapM_cons] at hlines
    obtain ⟨line, hline, hlines⟩ := Checked.bind_ok hlines
    obtain ⟨others, hothers, hlines⟩ := Checked.bind_ok hlines
    obtain rfl := Except.ok.inj hlines
    obtain rfl := eq_of_channelLine hline
    obtain ⟨before, next, hbefore, hobeys, hrest⟩ := h.cons
    obtain ⟨heater, hlt, hread, gains, hgains, hnext⟩ :=
      hobeys.setPid (isWord_channel channel) (isWord_showInt channel.1).2
    obtain ⟨hreads, hkept, hlast⟩ := ih hothers hrest
    rw [hbefore] at hnext
    refine ⟨?_, ?_, fun i => ⟨fun hnone => ?_, fun wanted hwanted => ?_⟩⟩
    · intro other hother
      rcases List.mem_cons.mp hother with rfl | hother
      · exact ⟨heater, hlt, hread⟩
      · exact hreads other hother
    · rw [hkept, hnext]
    · rw [lastFor, Option.or_eq_none_iff] at hnone
      have hother : ¬ some heater = some i.val := by
        intro hsame
        rw [hread, if_pos hsame] at hnone
        cases hnone.2
      rw [(hlast i).1 hnone.1, hnext]
      exact if_neg hother
    · rw [lastFor] at hwanted
      cases hrestLast : lastFor i rest with
      | some last =>
        rw [hrestLast] at hwanted
        obtain rfl := Option.some.inj hwanted
        exact (hlast i).2 last hrestLast
      | none =>
        rw [hrestLast, hread] at hwanted
        split at hwanted
        case isFalse => cases hwanted
        case isTrue hsame =>
          obtain rfl := Option.some.inj hwanted
          refine ⟨gains, hgains, ?_⟩
          rw [(hlast i).1 hrestLast, hnext]
          exact if_pos hsame

/-- What the targets from a channel on want for a channel: nothing, no target, or a target. -/
def wanted : List (Option Double) → ℕ → ℕ → Option (Option Double)
  | [], _, _ => none
  | target :: rest, first, heater => if heater = first then some target else wanted rest (first + 1) heater

/-- For a channel before the first nothing is wanted. -/
theorem wanted_of_lt (targets : List (Option Double)) {first heater : ℕ} (h : heater < first) :
    wanted targets first heater = none := by
  induction targets generalizing first with
  | nil => rfl
  | cons target rest ih => rw [wanted, if_neg h.ne, ih (h.trans (Nat.lt_succ_self _))]

/-- The targets are wanted in order. -/
theorem wanted_add (targets : List (Option Double)) (first k : ℕ) :
    wanted targets first (first + k) = targets[k]? := by
  induction targets generalizing first k with
  | nil => rfl
  | cons target rest ih =>
    cases k with
    | zero => exact if_pos rfl
    | succ k =>
      have hnext : first + (k + 1) = first + 1 + k := by omega
      rw [wanted, if_neg (by omega), hnext, ih, List.getElem?_cons_succ]

/-- Some target is set. -/
def anyTarget (targets : List (Option Double)) : Bool := targets.any Option.isSome

/-- What is in force for a channel, given what is wanted for it: a target takes the duty of the channel away, no
target leaves it as it was. -/
def Served (before after : Heater.ControlOverrides heaters) (i : Fin heaters) : Option (Option Double) → Prop
  | none => after.tempTargetsC i = before.tempTargetsC i ∧ after.heaterDutyOverrides i = before.heaterDutyOverrides i
  | some none => after.tempTargetsC i = none ∧ after.heaterDutyOverrides i = before.heaterDutyOverrides i
  | some (some target) => (∃ value, printedTarget target = some value ∧ after.tempTargetsC i = some value) ∧
    after.heaterDutyOverrides i = none

/-- What the lines of some targets leave of the overrides. -/
structure Targeted (targets : List (Option Double)) (first : ℕ) (before after : Heater.ControlOverrides heaters) :
    Prop where
  gains : after.pidOverrides = before.pidOverrides
  single : after.singleHeaterOverride = before.singleHeaterOverride
  off : after.heatersOff = if anyTarget targets then false else before.heatersOff
  all : after.allHeatersOverride = if anyTarget targets then none else before.allHeatersOverride
  served : ∀ i : Fin heaters, Served before after i (wanted targets first i)

variable {before middle later : Heater.ControlOverrides heaters}

/-- What is in force for a channel stays in force if nothing more is wanted for it. -/
theorem Served.then_none {i : Fin heaters} {want : Option (Option Double)} (h : Served before middle i want)
    (hrest : Served middle later i none) : Served before later i want := by
  obtain ⟨htarget, hduty⟩ := hrest
  cases want with
  | none => exact ⟨htarget.trans h.1, hduty.trans h.2⟩
  | some target =>
    cases target with
    | none => exact ⟨htarget.trans h.1, hduty.trans h.2⟩
    | some target =>
      obtain ⟨⟨value, hvalue, hmiddle⟩, hnone⟩ := h
      exact ⟨⟨value, hvalue, htarget.trans hmiddle⟩, hduty.trans hnone⟩

/-- What is wanted for a channel is in force if nothing was wanted for it before. -/
theorem Served.none_then {i : Fin heaters} {want : Option (Option Double)} (hfirst : Served before middle i none)
    (h : Served middle later i want) : Served before later i want := by
  obtain ⟨htarget, hduty⟩ := hfirst
  cases want with
  | none => exact ⟨h.1.trans htarget, h.2.trans hduty⟩
  | some target =>
    cases target with
    | none => exact ⟨h.1, h.2.trans hduty⟩
    | some target => exact h

/-- One line and then the lines of the targets behind it. -/
theorem Targeted.cons {target : Option Double} {rest : List (Option Double)} {first : ℕ}
    (hfirst : Targeted [target] first before middle) (h : Targeted rest (first + 1) middle later) :
    Targeted (target :: rest) first before later := by
  have hany : anyTarget (target :: rest) = (anyTarget [target] || anyTarget rest) := by
    simp [anyTarget]
  refine ⟨h.gains.trans hfirst.gains, h.single.trans hfirst.single, ?_, ?_, fun i => ?_⟩
  · rw [h.off, hfirst.off, hany]
    cases anyTarget rest <;> simp
  · rw [h.all, hfirst.all, hany]
    cases anyTarget rest <;> simp
  · have hone := hfirst.served i
    have hrest := h.served i
    by_cases hi : i.val = first
    · rw [wanted, if_pos hi] at hone ⊢
      rw [wanted_of_lt rest (hi ▸ Nat.lt_succ_self _)] at hrest
      exact hone.then_none hrest
    · rw [wanted, if_neg hi] at hone ⊢
      exact hone.none_then hrest

/-- The lines of targets set and clear them. -/
theorem targets_overrides {targets : List (Option Double)} {first : ℕ}
    (h : Onboard.Acknowledged platform s ((targets.zipIdx first).map targetLine) after) :
    Targeted targets first s.controller.overrides after.controller.overrides := by
  induction targets generalizing s first with
  | nil =>
    rw [h.overrides_nil]
    exact ⟨rfl, rfl, rfl, rfl, fun i => ⟨rfl, rfl⟩⟩
  | cons target rest ih =>
    rw [List.zipIdx_cons, List.map_cons] at h
    obtain ⟨before, next, hbefore, hobeys, hrest⟩ := h.cons
    have hindex := isWord_showInt first
    rw [showInt_natCast] at hindex
    rw [← hbefore]
    refine Targeted.cons ?_ (ih hrest)
    cases target with
    | none =>
      obtain ⟨heater, -, hread, hnext⟩ := hobeys.clearTempTarget hindex.1 hindex.2
      obtain rfl := eq_of_parseIndex_showNat hread
      rw [hnext]
      refine ⟨rfl, rfl, rfl, rfl, fun i => ?_⟩
      by_cases hi : i.val = heater
      · rw [wanted, if_pos hi]
        exact ⟨if_pos (congrArg some hi.symm), rfl⟩
      · rw [wanted, if_neg hi]
        exact ⟨if_neg fun hsame => hi (Option.some.inj hsame).symm, rfl⟩
    | some target =>
      obtain ⟨heater, -, hread, value, hvalue, hnext⟩ :=
        hobeys.setTempTarget (isWord_target hindex.1 target) hindex.2
      obtain rfl := eq_of_parseIndex_showNat hread
      rw [hnext]
      refine ⟨rfl, rfl, rfl, rfl, fun i => ?_⟩
      by_cases hi : i.val = heater
      · rw [wanted, if_pos hi]
        exact ⟨⟨value, hvalue, if_pos (congrArg some hi.symm)⟩, if_pos (congrArg some hi.symm)⟩
      · have hother : ¬ some heater = some i.val := fun hsame => hi (Option.some.inj hsame).symm
        rw [wanted, if_neg hi]
        exact ⟨if_neg hother, if_neg hother⟩

/-- What is in force once all commands of a preset are acknowledged. -/
structure Applied (preset : ThermalPreset) (before after : Heater.ControlOverrides heaters) : Prop where
  reads : ∀ channel ∈ preset.sortedChannels, ∃ heater < heaters, parseIndex (showInt channel.1) = some heater
  gains : ∀ i : Fin heaters, ∃ printed,
    ((lastFor i preset.sortedChannels).getD preset.pidAll).printed = some printed ∧
      after.pidOverrides i = some printed
  single : after.singleHeaterOverride = before.singleHeaterOverride
  off : after.heatersOff = if anyTarget preset.targetsC then false else before.heatersOff
  all : after.allHeatersOverride = if anyTarget preset.targetsC then none else before.allHeatersOverride
  served : ∀ i : Fin heaters, Served before after i preset.targetsC[i.val]?

/-- The commands of a preset, once acknowledged, are applied. -/
theorem applied_of_acknowledged {preset : ThermalPreset} {lines : List (List Char)}
    (hcommands : preset.commands = .ok lines) (h : Onboard.Acknowledged platform s lines after) :
    Applied preset s.controller.overrides after.controller.overrides := by
  obtain ⟨channels, hchannels, hlines⟩ := Checked.bind_ok hcommands
  obtain rfl := Except.ok.inj hlines
  obtain ⟨before, next, hbefore, hobeys, hrest⟩ := h.cons
  obtain ⟨middle, hmiddle, htargets⟩ := hrest.append
  obtain ⟨common, hcommon, hnext⟩ := hobeys.setPid_all (isWord_gains preset.pidAll)
  obtain ⟨hreads, hkept, hlast⟩ := channels_overrides hchannels hmiddle
  have htargeted := targets_overrides htargets
  rw [hbefore] at hnext
  rw [hnext] at hkept
  refine ⟨hreads, fun i => ?_, htargeted.single.trans (by rw [hkept]), htargeted.off.trans (by rw [hkept]),
    htargeted.all.trans (by rw [hkept]), fun i => ?_⟩
  · rw [htargeted.gains]
    cases hown : lastFor i preset.sortedChannels with
    | none =>
      refine ⟨common, hcommon, ?_⟩
      rw [(hlast i).1 hown, hnext]
    | some gains => exact (hlast i).2 gains hown
  · have hserved := htargeted.served i
    have hsame : Served s.controller.overrides middle.controller.overrides i none := by
      rw [hkept]
      exact ⟨rfl, rfl⟩
    have hwanted : wanted preset.targetsC 0 i = preset.targetsC[i.val]? := by
      rw [← wanted_add preset.targetsC 0 i.val, Nat.zero_add]
    rw [hwanted] at hserved
    exact hsame.none_then hserved

/-- The channels of a preset are sorted. -/
theorem ThermalPreset.sortedChannels_lt (preset : ThermalPreset) :
    preset.sortedChannels.Pairwise fun one two => one.1 < two.1 := by
  have hle : preset.sortedChannels.Pairwise fun one two => one.1 ≤ two.1 := by
    simpa only [sortedChannels, decide_eq_true_eq] using
      @List.pairwise_mergeSort _ (fun one two : ℤ × Gains => decide (one.1 ≤ two.1))
        (fun a b c hab hbc => by simpa using le_trans (by simpa using hab) (by simpa using hbc))
        (fun a b => by simpa using le_total a.1 b.1) preset.pidChannels.entries
  have hne : preset.sortedChannels.Pairwise fun one two => one.1 ≠ two.1 := by
    have hkeys : (preset.sortedChannels.map Prod.fst).Nodup :=
      ((List.mergeSort_perm _ _).map Prod.fst).nodup_iff.mpr preset.pidChannels.distinct
    exact List.pairwise_map.mp hkeys
  exact (hle.and hne).imp fun h => lt_of_le_of_ne h.1 h.2

/-- The sorted channels are the entries of the dictionary. -/
theorem ThermalPreset.mem_sortedChannels {preset : ThermalPreset} {key : ℤ} {gains : Gains} :
    (key, gains) ∈ preset.sortedChannels ↔ preset.pidChannels.get? key = some gains := by
  rw [PyDict.get?_eq_some_iff]
  exact List.mem_mergeSort

/-- A channel is read as itself, or from a negative number modulo 2^64. -/
theorem key_of_parseIndex {key : ℤ} {heater : ℕ} (h : parseIndex (showInt key) = some heater) :
    key = heater ∨ key < 0 ∧ (heater : ℤ) = key + 2 ^ 64 := by
  rw [parseIndex_showInt] at h
  split at h
  case isTrue hfits =>
    have hvalue := Option.some.inj h
    omega
  case isFalse => cases h

/-- The gains of a channel itself are the last ones. -/
theorem Applied.lastFor_own {preset : ThermalPreset} {before after : Heater.ControlOverrides heaters}
    (h : Applied preset before after) {i : Fin heaters} {gains : Gains}
    (hown : preset.pidChannels.get? (i.val : ℤ) = some gains) : lastFor i preset.sortedChannels = some gains := by
  have hin := ThermalPreset.mem_sortedChannels.mpr hown
  obtain ⟨heater, -, hread⟩ := h.reads _ hin
  have hsame : heater = i.val := by
    rcases key_of_parseIndex hread with hsame | ⟨hneg, -⟩
    · have hcast : (i.val : ℤ) = heater := hsame
      exact_mod_cast hcast.symm
    · exact absurd hneg (not_lt.mpr (Int.natCast_nonneg _))
  rw [hsame] at hread
  refine lastFor_eq_some preset.sortedChannels_lt hin hread fun channel _ hother => ?_
  rcases key_of_parseIndex hother with hsame | ⟨hneg, -⟩
  · exact hsame.le
  · exact hneg.le.trans (Int.natCast_nonneg _)

/-- Without gains of its own a channel has those under a negative number that is read as this channel. -/
theorem Applied.lastFor_negative {preset : ThermalPreset} {before after : Heater.ControlOverrides heaters}
    (h : Applied preset before after) {i : Fin heaters} {key : ℤ} {gains : Gains} (hneg : key < 0)
    (hkey : (i.val : ℤ) = key + 2 ^ 64) (hgains : preset.pidChannels.get? key = some gains)
    (hnone : preset.pidChannels.get? (i.val : ℤ) = none) : lastFor i preset.sortedChannels = some gains := by
  have hin := ThermalPreset.mem_sortedChannels.mpr hgains
  obtain ⟨heater, -, hread⟩ := h.reads _ hin
  have hsame : heater = i.val := by
    rcases key_of_parseIndex hread with hsame | ⟨-, hsame⟩ <;> omega
  rw [hsame] at hread
  refine lastFor_eq_some preset.sortedChannels_lt hin hread fun channel hchannel hother => ?_
  rcases key_of_parseIndex hother with hsame | ⟨-, hsame⟩
  · have hthere := ThermalPreset.mem_sortedChannels.mp hchannel
    rw [hsame, hnone] at hthere
    cases hthere
  · exact (show channel.1 = key by omega).le

/-- Without any such gains a channel has those of all channels. -/
theorem lastFor_common {preset : ThermalPreset} {i : Fin heaters}
    (hnone : preset.pidChannels.get? (i.val : ℤ) = none)
    (hother : ∀ key < 0, (i.val : ℤ) = key + 2 ^ 64 → preset.pidChannels.get? key = none) :
    lastFor i preset.sortedChannels = none := by
  refine lastFor_eq_none fun channel hchannel hread => ?_
  have hthere := ThermalPreset.mem_sortedChannels.mp hchannel
  rcases key_of_parseIndex hread with hsame | ⟨hneg, hsame⟩
  · rw [hsame, hnone] at hthere
    cases hthere
  · rw [hother channel.1 hneg hsame] at hthere
    cases hthere

/-- The onboard is set as the preset says: the targets and the gains are the preset's to the digits that are printed,
and nothing that was commanded directly heats a channel whose target is absent. -/
structure Reproduces (preset : ThermalPreset) (o : Heater.ControlOverrides heaters) : Prop where
  set : ∀ (i : Fin heaters) (target : Double), preset.targetsC[i.val]? = some (some target) →
    ∃ value, printedTarget target = some value ∧ o.tempTargetsC i = some value
  cleared : ∀ i : Fin heaters, preset.targetsC[i.val]? = some none → o.tempTargetsC i = none
  gains : ∀ i : Fin heaters, ∃ printed, (preset.gainsOf i).printed = some printed ∧
    ∀ thermal : Heater.ThermalController heaters, ((thermal.applyGains o).samplePids i).gains = printed
  cold : ∀ i : Fin heaters, preset.targetsC[i.val]? = some none → Heater.ThermalController.directDuty o i ≤ 0

/-- No duty is left on a channel whose target is absent: with some target set none of the channel itself, and with no
target at all none of all channels either. And gains under a negative number, which is read modulo 2^64, are those of
all channels unless the channel that it is read as has its own. -/
structure NothingLeft (preset : ThermalPreset) (o : Heater.ControlOverrides heaters) : Prop where
  own : anyTarget preset.targetsC = true → ∀ i : Fin heaters, preset.targetsC[i.val]? = some none →
    Heater.ThermalController.overrideDuty { o with allHeatersOverride := none } (fun _ => 0) i ≤ 0
  all : anyTarget preset.targetsC = false → ∀ i : Fin heaters, preset.targetsC[i.val]? = some none →
    Heater.ThermalController.directDuty o i ≤ 0
  negative : ∀ key gains, key < 0 → preset.pidChannels.get? key = some gains → ∀ i : Fin heaters,
    (i.val : ℤ) = key + 2 ^ 64 → preset.pidChannels.get? (i.val : ℤ) = none →
      gains.printed = preset.pidAll.printed

/-- The duty that is left on a channel whose target is absent: the channel's own if some target is set, else all. -/
theorem Applied.directDuty_eq {preset : ThermalPreset} {before after : Heater.ControlOverrides heaters}
    (h : Applied preset before after) {i : Fin heaters} (habsent : preset.targetsC[i.val]? = some none) :
    Heater.ThermalController.directDuty after i =
      if anyTarget preset.targetsC then
        Heater.ThermalController.overrideDuty { before with allHeatersOverride := none } (fun _ => 0) i
      else Heater.ThermalController.directDuty before i := by
  have hserved := h.served i
  rw [habsent] at hserved
  have hown : after.heaterDutyOverrides i = before.heaterDutyOverrides i := hserved.2
  have hoff := h.off
  have hall := h.all
  unfold Heater.ThermalController.directDuty
  cases hany : anyTarget preset.targetsC with
  | true =>
    rw [hany, if_pos rfl] at hoff hall
    rw [hoff, if_neg Bool.false_ne_true, if_pos rfl]
    exact Heater.ThermalController.overrideDuty_congr hall h.single hown rfl
  | false =>
    rw [hany, if_neg Bool.false_ne_true] at hoff hall
    rw [hoff, if_neg Bool.false_ne_true, Heater.ThermalController.overrideDuty_congr hall h.single hown rfl]

/-- The gains that the onboard takes over for a channel are those that are in force for it alone. -/
theorem gains_applyGains {o : Heater.ControlOverrides heaters} {i : Fin heaters} {gains : Heater.PidGains}
    (h : o.pidOverrides i = some gains) (thermal : Heater.ThermalController heaters) :
    ((thermal.applyGains o).samplePids i).gains = gains := by
  unfold Heater.ThermalController.applyGains
  dsimp only
  rw [h]
  rfl

/-- A preset whose commands are applied is reproduced exactly when nothing is left over. -/
theorem Applied.reproduces_iff {preset : ThermalPreset} {before after : Heater.ControlOverrides heaters}
    (h : Applied preset before after) : Reproduces preset after ↔ NothingLeft preset before := by
  constructor
  · intro hreproduces
    refine ⟨fun hany i habsent => ?_, fun hany i habsent => ?_, fun key gains hneg hgains i hkey hnone => ?_⟩
    · have hcold := hreproduces.cold i habsent
      rwa [h.directDuty_eq habsent, if_pos hany] at hcold
    · have hcold := hreproduces.cold i habsent
      rwa [h.directDuty_eq habsent, hany, if_neg Bool.false_ne_true] at hcold
    · obtain ⟨printed, hprinted, htaken⟩ := hreproduces.gains i
      obtain ⟨inForce, hread, hin⟩ := h.gains i
      have hsame : printed = inForce := (htaken (.new {})).symm.trans (gains_applyGains hin _)
      rw [ThermalPreset.gainsOf, hnone] at hprinted
      rw [h.lastFor_negative hneg hkey hgains hnone] at hread
      exact hread.trans (hsame ▸ hprinted).symm
  · intro hleft
    refine ⟨fun i target hi => ?_, fun i hi => ?_, fun i => ?_, fun i hi => ?_⟩
    · have hserved := h.served i
      rw [hi] at hserved
      exact hserved.1
    · have hserved := h.served i
      rw [hi] at hserved
      exact hserved.1
    · obtain ⟨printed, hprinted, hin⟩ := h.gains i
      refine ⟨printed, ?_, gains_applyGains hin⟩
      rw [ThermalPreset.gainsOf]
      cases hown : preset.pidChannels.get? (i.val : ℤ) with
      | some gains => rwa [h.lastFor_own hown] at hprinted
      | none =>
        by_cases hnegative : ∃ key < 0, (i.val : ℤ) = key + 2 ^ 64 ∧ preset.pidChannels.get? key ≠ none
        · obtain ⟨key, hneg, hkey, hthere⟩ := hnegative
          obtain ⟨gains, hgains⟩ := Option.ne_none_iff_exists'.mp hthere
          rw [h.lastFor_negative hneg hkey hgains hown] at hprinted
          exact (hleft.negative key gains hneg hgains i hkey hown).symm.trans hprinted
        · have hother : ∀ key < 0, (i.val : ℤ) = key + 2 ^ 64 → preset.pidChannels.get? key = none := by
            intro key hneg hkey
            by_contra hthere
            exact hnegative ⟨key, hneg, hkey, hthere⟩
          rwa [lastFor_common hown hother] at hprinted
    · rw [h.directDuty_eq hi]
      split
      case isTrue hany => exact hleft.own hany i hi
      case isFalse hany => exact hleft.all (Bool.eq_false_iff.mpr hany) i hi

/-- Gains that the onboard accepts: their digits are numbers, none of them negative. -/
def Gains.Accepted (gains : Gains) : Prop := ∃ printed, gains.printed = some printed ∧ Onboard.NotNegative printed

/-- No line leaves the overrides as they are. -/
theorem acknowledged_nil (platform : Motion.Platform ℚ δ) (s : Onboard heaters motors δ) :
    Onboard.Acknowledged platform s [] (s.withOverrides s.controller.overrides) := by
  have hsame : (s.withOverrides s.controller.overrides).controller.overrides = s.controller.overrides := rfl
  exact .meanwhile hsame (.done _)

/-- A ready onboard acknowledges accepted gains of single channels. -/
theorem acknowledged_channels (platform : Motion.Platform ℚ δ) (hready : s.Ready) {channels : List (ℤ × Gains)}
    {lines : List (List Char)} (hlines : channels.mapM channelLine = .ok lines)
    (h : ∀ channel ∈ channels, (∃ heater < heaters, parseIndex (showInt channel.1) = some heater) ∧
      channel.2.Accepted) :
    ∃ overrides, Onboard.Acknowledged platform s lines (s.withOverrides overrides) := by
  induction channels generalizing s lines with
  | nil =>
    obtain rfl := Except.ok.inj hlines
    exact ⟨_, acknowledged_nil platform s⟩
  | cons channel rest ih =>
    rw [List.mapM_cons] at hlines
    obtain ⟨line, hline, hlines⟩ := Checked.bind_ok hlines
    obtain ⟨others, hothers, hlines⟩ := Checked.bind_ok hlines
    obtain rfl := Except.ok.inj hlines
    obtain rfl := eq_of_channelLine hline
    obtain ⟨⟨heater, hlt, hread⟩, gains, hgains, hnonneg⟩ := h channel List.mem_cons_self
    have hobeys := hready.setPid platform (isWord_channel channel) (isWord_showInt channel.1).2 hread hlt hgains hnonneg
    obtain ⟨overrides, hrest⟩ := ih (hready.withOverrides _) hothers
      fun other hother => h other (List.mem_cons_of_mem _ hother)
    exact ⟨overrides, .line hobeys hrest⟩

/-- A ready onboard acknowledges targets within its limits, and clears the others. -/
theorem acknowledged_targets (platform : Motion.Platform ℚ δ) (hready : s.Ready) (hheaters : heaterCount ≤ heaters)
    {targets : List (Option Double)} {first : ℕ} (hcount : first + targets.length ≤ heaterCount)
    (h : ∀ target, some target ∈ targets → ∃ value, printedTarget target = some value ∧
      s.controller.config.targetMinC ≤ value ∧ value ≤ s.controller.config.targetMaxC) :
    ∃ overrides, Onboard.Acknowledged platform s ((targets.zipIdx first).map targetLine)
      (s.withOverrides overrides) := by
  induction targets generalizing s first with
  | nil => exact ⟨_, acknowledged_nil platform s⟩
  | cons target rest ih =>
    rw [List.zipIdx_cons, List.map_cons]
    rw [List.length_cons] at hcount
    have hsix : first < heaterCount := by omega
    have hlt : first < heaters := hsix.trans_le hheaters
    have hread : parseIndex (showNat first) = some first := by
      have hsmall : first < 6 := hsix
      rw [← showInt_natCast, parseIndex_showInt, if_pos (by omega)]
      congr 1
      omega
    have hindex := isWord_showInt first
    rw [showInt_natCast] at hindex
    have hlater : ∀ target, some target ∈ rest → ∃ value, printedTarget target = some value ∧
        s.controller.config.targetMinC ≤ value ∧ value ≤ s.controller.config.targetMaxC :=
      fun later hlater => h later (List.mem_cons_of_mem _ hlater)
    have hrest (overrides : Heater.ControlOverrides heaters) :=
      @ih (s.withOverrides overrides) (hready.withOverrides overrides) (first + 1) (by omega) hlater
    cases target with
    | none =>
      have hobeys := hready.clearTempTarget platform hindex.1 hindex.2 hread hlt
      obtain ⟨overrides, hrest⟩ := hrest _
      exact ⟨overrides, .line hobeys hrest⟩
    | some target =>
      obtain ⟨value, hvalue, hmin, hmax⟩ := h target List.mem_cons_self
      have hobeys := hready.setTempTarget platform (isWord_target hindex.1 target) hindex.2 hread hlt hvalue hmin hmax
      obtain ⟨overrides, hrest⟩ := hrest _
      exact ⟨overrides, .line hobeys hrest⟩

/-- A ready onboard with enough heaters acknowledges all commands of a preset with accepted gains for channels that it
has and with targets within the limits. -/
theorem exists_acknowledged (platform : Motion.Platform ℚ δ) (hready : s.Ready) (hheaters : heaterCount ≤ heaters)
    {preset : ThermalPreset} {lines : List (List Char)} (hcommands : preset.commands = .ok lines)
    (hcommon : preset.pidAll.Accepted)
    (hchannels : ∀ channel ∈ preset.sortedChannels,
      (∃ heater < heaters, parseIndex (showInt channel.1) = some heater) ∧ channel.2.Accepted)
    (htargets : ∀ target, some target ∈ preset.targetsC → ∃ value, printedTarget target = some value ∧
      s.controller.config.targetMinC ≤ value ∧ value ≤ s.controller.config.targetMaxC) :
    ∃ after, Onboard.Acknowledged platform s lines after := by
  obtain ⟨channels, hlines, hsum⟩ := Checked.bind_ok hcommands
  obtain rfl := Except.ok.inj hsum
  obtain ⟨gains, hgains, hnonneg⟩ := hcommon
  have hobeys := hready.setPid_all platform (isWord_gains preset.pidAll) hgains hnonneg
  obtain ⟨middle, hmiddle⟩ := acknowledged_channels platform (hready.withOverrides _) hlines hchannels
  have hcount : 0 + preset.targetsC.length ≤ heaterCount := by rw [Nat.zero_add, preset.six]
  obtain ⟨overrides, hrest⟩ := acknowledged_targets platform
    ((hready.withOverrides _).withOverrides middle) hheaters hcount htargets
  exact ⟨_, .line hobeys (hmiddle.trans hrest)⟩

/-- Once the onboard has acknowledged all commands of a preset, it is set as the preset says exactly when nothing was
left over. -/
theorem reproduces_iff_nothingLeft {preset : ThermalPreset} {lines : List (List Char)}
    (hcommands : preset.commands = .ok lines) (h : Onboard.Acknowledged platform s lines after) :
    Reproduces preset after.controller.overrides ↔ NothingLeft preset s.controller.overrides :=
  (applied_of_acknowledged hcommands h).reproduces_iff

/-- A target of 25 degrees for the first channel and none for the others. -/
def firstTarget : ThermalPreset where
  name := "first".toList
  targetsC := [some ⟨false, .finite (25 : ℕ)⟩, none, none, none, none, none]
  pidAll := ⟨⟨false, .finite (2 : ℕ)⟩, ⟨false, .finite 0⟩, ⟨false, .finite 0⟩⟩
  pidChannels := .empty
  note := []
  createdUtc := []
  lastAppliedUtc := .null
  six := rfl

/-- Six heaters in RUN mode at 20 degrees. -/
def warm : Onboard 6 2 Motion.SimulatedStepperDriver :=
  ⟨{ Heater.SystemController.new {} ⟨2, 0, 0, 0⟩ false with
    mode := .run
    lastSensorSnapshot := ⟨[20, 20, 20, 20, 20, 20], []⟩ }, .bench, true⟩

/-- Half the power for the third heater. -/
def thirdHeld : Heater.ControlOverrides 6 where
  heaterDutyOverrides := Heater.SystemController.setAt (fun _ => none) (some 2) (some (1 / 2))
  tempTargetsC := Heater.SystemController.setAt (fun _ => none) (some 2) none

/-- The onboard is ready. -/
theorem ready_warm : warm.Ready := ⟨rfl, rfl, rfl, by decide⟩

/-- A command gives the third heater half the power. -/
theorem obeys_thirdHeld : warm.Obeys Motion.SimulatedStepperDriver.platform "SET_HEATER_DUTY 2 0.5".toList
    (warm.withOverrides thirdHeld) := by
  have hwords : ∀ word ∈ ["2".toList, "0.5".toList], IsWord isSeparator word := by
    intro word hin
    simp only [List.mem_cons, List.not_mem_nil, or_false] at hin
    rcases hin with rfl | rfl
    · exact ⟨by decide, by decide⟩
    · exact ⟨by decide, by decide⟩
  have hdigit : '2' ∈ "2".toList := by decide
  have hparse : parseLine 2 "SET_HEATER_DUTY 2 0.5".toList =
      .ok ⟨.setHeaterDuty, ["2".toList, "0.5".toList], none⟩ :=
    parseLine_unwords 2 .setHeaterDuty hwords ⟨'2', hdigit, by decide⟩
  have hindex : parseIndex "2".toList = some 2 := by decide +kernel
  have hduty : wholeDouble "0.5".toList = some (1 / 2) := by decide +kernel
  have hrequest : warm.request ⟨.setHeaterDuty, ["2".toList, "0.5".toList], none⟩ =
      some (.ok (.heater (some "2".toList) (.setHeaterDuty (some 2) (some (1 / 2))))) := by
    rw [← hindex, ← hduty]
    rfl
  have hcheck : warm.controller.check warm.motionHeld (.setHeaterDuty (some 2) (some (1 / 2))) = .ok () := by
    decide +kernel
  exact Onboard.obeys_heater Motion.SimulatedStepperDriver.platform rfl hparse hrequest hcheck rfl

/-- The commands of the preset are acknowledged whatever the overrides were. -/
theorem acknowledged_firstTarget (overrides : Heater.ControlOverrides 6) : ∃ lines after,
    firstTarget.commands = .ok lines ∧
      Onboard.Acknowledged Motion.SimulatedStepperDriver.platform (warm.withOverrides overrides) lines after := by
  have hnone : firstTarget.sortedChannels = [] := List.mergeSort_nil
  have hcommands : firstTarget.commands = .ok (setPidLine "ALL".toList firstTarget.pidAll ::
      ([] ++ firstTarget.targetsC.zipIdx.map targetLine)) := by
    rw [ThermalPreset.commands, hnone]
    rfl
  have hgains : firstTarget.pidAll.Accepted := by
    refine ⟨⟨2, 0, 0⟩, by decide +kernel, by decide, by decide, by decide⟩
  have hvalue : printedTarget ⟨false, .finite (25 : ℕ)⟩ = some 25 := by decide +kernel
  have htargets : ∀ target, some target ∈ firstTarget.targetsC → ∃ value, printedTarget target = some value ∧
      (0 : ℚ) ≤ value ∧ value ≤ 75 := by
    intro target hin
    simp only [firstTarget, List.mem_cons, Option.some.injEq, reduceCtorEq, List.not_mem_nil, or_false] at hin
    subst hin
    exact ⟨25, hvalue, by norm_num, by norm_num⟩
  have hchannels : ∀ channel ∈ firstTarget.sortedChannels,
      (∃ heater < 6, parseIndex (showInt channel.1) = some heater) ∧ channel.2.Accepted := by
    rw [hnone]
    exact fun channel hin => absurd hin List.not_mem_nil
  obtain ⟨after, hafter⟩ := exists_acknowledged Motion.SimulatedStepperDriver.platform
    (ready_warm.withOverrides overrides) le_rfl hcommands hgains hchannels htargets
  exact ⟨_, after, hcommands, hafter⟩

/-- With nothing left over the preset is reproduced. -/
theorem reproduces_firstTarget : ∃ lines after, firstTarget.commands = .ok lines ∧
    Onboard.Acknowledged Motion.SimulatedStepperDriver.platform (warm.withOverrides {}) lines after ∧
      Reproduces firstTarget after.controller.overrides := by
  obtain ⟨lines, after, hcommands, hafter⟩ := acknowledged_firstTarget {}
  refine ⟨lines, after, hcommands, hafter, (reproduces_iff_nothingLeft hcommands hafter).mpr ?_⟩
  exact ⟨fun _ _ _ => le_rfl, fun _ _ _ => le_rfl, fun _ _ _ hgains => by cases hgains⟩

/-- A duty of half the power that the third heater was given stays, although its target is absent. -/
theorem not_reproduces_thirdHeld : (warm.withOverrides thirdHeld).Ready ∧
    warm.Obeys Motion.SimulatedStepperDriver.platform "SET_HEATER_DUTY 2 0.5".toList (warm.withOverrides thirdHeld) ∧
    ∃ lines after, firstTarget.commands = .ok lines ∧
      Onboard.Acknowledged Motion.SimulatedStepperDriver.platform (warm.withOverrides thirdHeld) lines after ∧
      Heater.ThermalController.directDuty after.controller.overrides 2 = 1 / 2 ∧
      ¬ Reproduces firstTarget after.controller.overrides := by
  obtain ⟨lines, after, hcommands, hafter⟩ := acknowledged_firstTarget thirdHeld
  have hduty : Heater.ThermalController.directDuty after.controller.overrides 2 = 1 / 2 := by
    rw [(applied_of_acknowledged hcommands hafter).directDuty_eq rfl]
    decide +kernel
  refine ⟨ready_warm.withOverrides thirdHeld, obeys_thirdHeld, lines, after, hcommands, hafter, hduty, fun h => ?_⟩
  have hcold := h.cold 2 rfl
  rw [hduty] at hcold
  exact absurd hcold (by norm_num)

end Coatheal.Ground.ThermalPresets
