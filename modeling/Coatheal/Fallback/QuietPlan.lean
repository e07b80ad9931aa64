import Coatheal.Fallback.TornPlan

/-!
# Files of a plan at rest

All files of a plan whose state is none begin with the same lines, and no other
line of theirs can be taken for a state. Whatever is left of such files when
they are written over each other or break off, no armed plan is read from it.
-/

namespace Coatheal.Fallback

open Coatheal.Library Coatheal.Library.Text

variable {n : ℕ}

/-- The lines about the whole plan when its state is none. -/
def quietLines (cfg : FallbackPlannerConfig) : List (List Char) :=
  [keyValue "armed".toList ['0'], keyValue "state".toList "none".toList,
    keyValue "deadline_s".toList (formatG cfg.bendDeadlineS)]

/-- What every file of a plan at rest begins with. -/
def quietHead (cfg : FallbackPlannerConfig) : List Char := putlines '\n' (quietLines cfg)

/-- Character by character, a text says what the files of a plan at rest say; behind their common
beginning it has no letter s. -/
def Quiet (cfg : FallbackPlannerConfig) (text : List Char) : Prop :=
  ∀ i c, text[i]? = some c → ((quietHead cfg)[i]? = some c ∨ (quietHead cfg).length ≤ i ∧ c ≠ 's')

/-- A file is quiet if there is none. -/
def QuietFile (cfg : FallbackPlannerConfig) (file : Option (List Char)) : Prop := ∀ text ∈ file, Quiet cfg text

/-- The empty text is quiet. -/
theorem quiet_nil (cfg : FallbackPlannerConfig) : Quiet cfg [] := by
  intro i c h
  simp at h

/-- A file with a quiet text is quiet. -/
theorem quietFile_some {cfg : FallbackPlannerConfig} {text : List Char} (h : Quiet cfg text) :
    QuietFile cfg (some text) := by
  intro other hother
  obtain rfl := Option.some.inj hother
  exact h

/-- The empty file is quiet. -/
theorem quietFile_nil (cfg : FallbackPlannerConfig) : QuietFile cfg (some []) := quietFile_some (quiet_nil cfg)

/-- The beginning of a quiet text is quiet. -/
theorem Quiet.take {cfg : FallbackPlannerConfig} {text : List Char} (h : Quiet cfg text) (count : ℕ) :
    Quiet cfg (text.take count) := by
  intro i c hc
  rw [List.getElem?_take] at hc
  split at hc
  · exact h i c hc
  · cases hc

/-- What is kept of a quiet text is quiet. -/
theorem Quiet.kept {cfg : FallbackPlannerConfig} {text : List Char} (h : Quiet cfg text) (count : Option ℕ) :
    Quiet cfg (kept text count) := by
  cases count with
  | none => exact h
  | some count => exact h.take count

/-- A quiet text over a quiet file makes a quiet file. -/
theorem Quiet.overlay {cfg : FallbackPlannerConfig} {text : List Char} {file : Option (List Char)}
    (h : Quiet cfg text) (hfile : QuietFile cfg file) : Quiet cfg (overlay text file) := by
  intro i c hc
  unfold Fallback.overlay at hc
  rw [List.getElem?_append] at hc
  split at hc
  · exact h i c hc
  · rename_i hlong
    rw [List.getElem?_drop, Nat.add_sub_cancel' (not_lt.mp hlong)] at hc
    cases file with
    | none => simp at hc
    | some old => exact hfile old rfl i c hc

/-- A quiet text is a part of the common beginning, or begins with it. -/
theorem Quiet.cases {cfg : FallbackPlannerConfig} {text : List Char} (h : Quiet cfg text) :
    (∃ count, text = (quietHead cfg).take count) ∨ ∃ rest, text = quietHead cfg ++ rest ∧ 's' ∉ rest := by
  have hbegin : text.take (quietHead cfg).length = (quietHead cfg).take text.length := by
    refine List.ext_getElem? fun i => ?_
    rw [List.getElem?_take, List.getElem?_take]
    by_cases hi : i < text.length
    · obtain ⟨c, hc⟩ : ∃ c, text[i]? = some c := ⟨_, List.getElem?_eq_getElem hi⟩
      rcases h i c hc with hsame | ⟨hlong, -⟩
      · obtain ⟨hlt, -⟩ := List.getElem?_eq_some_iff.mp hsame
        rw [if_pos hlt, if_pos hi, hc, hsame]
      · rw [if_neg (not_lt.mpr hlong), if_pos hi, List.getElem?_eq_none hlong]
    · have hnone : text[i]? = none := List.getElem?_eq_none (not_lt.mp hi)
      rw [if_neg hi, hnone, ite_self]
  by_cases hshort : text.length ≤ (quietHead cfg).length
  · rw [List.take_of_length_le hshort] at hbegin
    exact Or.inl ⟨_, hbegin⟩
  · rw [List.take_of_length_le (by omega : (quietHead cfg).length ≤ text.length)] at hbegin
    refine Or.inr ⟨text.drop (quietHead cfg).length, ?_, fun hmem => ?_⟩
    · conv_lhs => rw [← List.take_append_drop (quietHead cfg).length text, hbegin]
    · obtain ⟨i, hi⟩ := List.mem_iff_getElem?.mp hmem
      rw [List.getElem?_drop] at hi
      rcases h _ _ hi with hsame | ⟨-, hne⟩
      · obtain ⟨hlt, -⟩ := List.getElem?_eq_some_iff.mp hsame
        omega
      · exact hne rfl

/-- The common beginning with anything behind it that has no letter s is quiet. -/
theorem quiet_append {cfg : FallbackPlannerConfig} {rest : List Char} (h : 's' ∉ rest) :
    Quiet cfg (quietHead cfg ++ rest) := by
  intro i c hc
  rw [List.getElem?_append] at hc
  split at hc
  · exact Or.inl hc
  · rename_i hlong
    refine Or.inr ⟨not_lt.mp hlong, ?_⟩
    rintro rfl
    exact h (List.mem_of_getElem? hc)

namespace FallbackPlanner

/-- The plan's state is none and no motor was skipped. -/
structure AtRest (p : FallbackPlanner n) : Prop where
  state : p.state = .none
  motors : ∀ i, (p.motors i).state ≠ .skipped

/-- A number has no letter s in it. -/
theorem isNumeral_ne_s {c : Char} (h : isNumeral c) : c ≠ 's' := by
  rintro rfl
  exact absurd h (by decide)

/-- No motor's line has a letter s in it, unless the motor was skipped. -/
theorem motorLine_noS {p : FallbackPlanner n} {i : Fin n} (h : (p.motors i).state ≠ .skipped)
    {line : List Char} (hline : p.motorLine i = some line) : 's' ∉ line := by
  unfold motorLine at hline
  split at hline
  · rename_i hconfigured
    obtain rfl := Option.some.inj hline
    have hname : 's' ∉ (p.motors i).state.toText.toList := by
      revert h
      cases (p.motors i).state <;> decide
    have hnumber : ∀ text : List Char, (∀ c ∈ text, isNumeral c) → 's' ∉ text :=
      fun text htext hmem => isNumeral_ne_s (htext 's' hmem) rfl
    have htarget := hnumber (showInt64 (p.motors i).targetUsteps) fun _ => showInt64_numeral
    have hhold := hnumber (formatG (p.motors i).holdS) fun _ => formatG_numeral
    have hspeed := hnumber (formatG (p.motors i).speedHz) fun _ => formatG_numeral
    have hid := hnumber (showNat i.val) fun _ => showNat_numeral
    simp [keyValue, FallbackMotorPlan.spec, htarget, hhold, hspeed, hid, hname]
  · cases hline

/-- The file of a plan at rest is quiet. -/
theorem AtRest.quiet_serialize {p : FallbackPlanner n} (h : p.AtRest) : Quiet p.cfg p.serialize := by
  have hhead : p.headLines = quietLines p.cfg := by
    have harmed : p.armed = false := by
      rw [armed, h.state]
      rfl
    rw [headLines, harmed, h.state]
    rfl
  have hsplit : p.serialize = quietHead p.cfg ++ putlines '\n' ((List.finRange n).filterMap p.motorLine) := by
    rw [serialize, hhead, putlines, List.flatMap_append]
    rfl
  rw [hsplit]
  refine quiet_append fun hmem => ?_
  obtain ⟨line, hline, hin⟩ := List.mem_flatMap.mp hmem
  obtain ⟨i, -, hi⟩ := List.mem_filterMap.mp hline
  rcases List.mem_append.mp hin with hin | hin
  · exact motorLine_noS (h.motors i) hi hin
  · exact absurd hin (by decide)

/-- What has been read so far says neither that the plan is armed nor that a motor was skipped. -/
structure Reading.Calm (reading : Reading n) : Prop where
  state : ∀ state ∈ reading.state, state = .none
  motors : ∀ i, (reading.motors i).state ≠ .skipped

/-- Fields without the letter s tell of no skipped motor. -/
theorem readSpec_noS {value : List Char} {plan : FallbackMotorPlan} (hvalue : 's' ∉ value)
    (h : readSpec value = some plan) : plan.state ≠ .skipped := by
  unfold readSpec at h
  split at h
  · rename_i target hold speed name heq
    simp only [Option.bind_eq_bind, Option.bind_eq_some_iff] at h
    obtain ⟨_, -, _, -, _, -, state, hstate, hplan⟩ := h
    split at hplan
    · cases hplan
    · rw [← Option.some.inj hplan]
      rintro rfl
      have hname : name = FallbackMotorState.skipped.toText.toList := by
        simpa using List.find?_some hstate
      have hin : name ∈ getlines ',' value := by simp [heq]
      exact hvalue (mem_of_mem_getlines hin (hname ▸ by decide : 's' ∈ name))
  · cases h

/-- A line without the letter s tells of no state of the plan and of no skipped motor. -/
theorem readLine_noS {before after : Reading n} {raw : List Char} (hcalm : before.Calm) (hraw : 's' ∉ raw)
    (h : readLine before raw = some after) : after.Calm := by
  have hline : 's' ∉ trim isBlank raw := fun hmem => hraw (mem_of_mem_trim hmem)
  unfold readLine at h
  dsimp only at h
  split at h
  · exact Option.some.inj h ▸ hcalm
  · split at h
    · cases h
    · rename_i key value hcut
      obtain ⟨hsplit, -⟩ := cut_eq_some hcut
      rw [hsplit] at hline
      have hkey : 's' ∉ key := fun hmem => hline (List.mem_append_left _ hmem)
      have hvalue : 's' ∉ value := fun hmem => hline (List.mem_append_right _ (List.mem_cons_of_mem _ hmem))
      split at h
      · rename_i heq
        exact absurd (heq ▸ by decide : 's' ∈ key) hkey
      · split at h
        · simp only [Option.bind_eq_bind, Option.bind_eq_some_iff] at h
          obtain ⟨_, -, j, -, plan, hplan, heq⟩ := h
          rw [← Option.some.inj heq]
          refine ⟨hcalm.state, fun i => ?_⟩
          by_cases hi : i = j
          · subst hi
            simpa using readSpec_noS hvalue hplan
          · simpa [hi] using hcalm.motors i
        · exact Option.some.inj h ▸ hcalm

/-- No character of the lines about the plan at rest is blank. -/
theorem quietLines_plain {cfg : FallbackPlannerConfig} {line : List Char} (h : line ∈ quietLines cfg) :
    ∀ c ∈ line, isBlank c = false := by
  have hdeadline : ∀ c ∈ formatG cfg.bendDeadlineS, isBlank c = false :=
    fun c hc => (isNumeral_plain (formatG_numeral hc)).1
  have hkey : ∀ c ∈ "deadline_s".toList, isBlank c = false := forall_mem_of_all (by decide)
  simp only [quietLines, List.mem_cons, List.not_mem_nil, or_false] at h
  rcases h with rfl | rfl | rfl
  · exact forall_mem_of_all (by decide)
  · exact forall_mem_of_all (by decide)
  · intro c hc
    rcases List.mem_append.mp hc with hmem | hmem
    · exact hkey c hmem
    rcases List.mem_cons.mp hmem with rfl | hmem
    · decide
    · exact hdeadline c hmem

/-- A line about the plan at rest that breaks off tells of no other state. -/
theorem readLine_quietLine {cfg : FallbackPlannerConfig} {before after : Reading n} {whole : List Char}
    (hcalm : before.Calm) (hwhole : whole ∈ quietLines cfg) (count : ℕ)
    (h : readLine before (whole.take count) = some after) : after.Calm := by
  rcases Nat.eq_zero_or_pos count with rfl | hpos
  · exact readLine_noS hcalm (by simp) h
  simp only [quietLines, List.mem_cons, List.not_mem_nil, or_false] at hwhole
  rcases hwhole with rfl | rfl | rfl
  · have hno : 's' ∉ keyValue "armed".toList ['0'] := by decide
    exact readLine_noS hcalm (fun hmem => hno (List.mem_of_mem_take hmem)) h
  · -- Only the whole name is the name of a state.
    have hkey : ∀ c ∈ "state".toList, isBlank c = false ∧ c ≠ '=' ∧ c ≠ '#' := forall_mem_of_all (by decide)
    have hvalue : ∀ c ∈ "none".toList, isBlank c = false := forall_mem_of_all (by decide)
    rw [readLine_take before hkey (by decide) hvalue hpos] at h
    split at h
    · cases h
    · rw [readLine_keyValue before hkey (by decide) fun c hc => hvalue c (List.mem_of_mem_take hc), if_pos rfl]
        at h
      obtain ⟨state, hstate, rfl⟩ := Option.map_eq_some_iff.mp h
      refine ⟨fun other hother => ?_, hcalm.motors⟩
      obtain rfl := Option.some.inj hother
      by_cases hshort : count - "state".toList.length - 1 < FallbackPlanState.none.toText.toList.length
      · have hnone := parseFallbackPlanState_take .none hshort
        exact absurd (hstate.symm.trans hnone) (by simp)
      · have hname : "none".toList.take (count - "state".toList.length - 1) = "none".toList :=
          List.take_of_length_le (not_lt.mp hshort)
        rw [hname] at hstate
        exact Option.some.inj (hstate.symm.trans (parseFallbackPlanState_toText .none))
  · have hkey : ∀ c ∈ "deadline_s".toList, isBlank c = false ∧ c ≠ '=' ∧ c ≠ '#' :=
      forall_mem_of_all (by decide)
    have hvalue : ∀ c ∈ formatG cfg.bendDeadlineS, isBlank c = false :=
      fun c hc => (isNumeral_plain (formatG_numeral hc)).1
    rw [readLine_take before hkey (by decide) hvalue hpos] at h
    split at h
    · cases h
    · rw [readLine_informational before hkey (by decide) (by decide) fun c hc =>
        hvalue c (List.mem_of_mem_take hc)] at h
      exact Option.some.inj h ▸ hcalm

/-- Whatever quiet file is loaded, the plan is at rest. -/
theorem AtRest.deserialize {cfg : FallbackPlannerConfig} {text : List Char} (h : Quiet cfg text)
    (p : FallbackPlanner n) : (p.deserialize text).1.AtRest := by
  have hfold : ∀ (lines : List (List Char)) (before after : Reading n), before.Calm →
      (∀ line ∈ lines, 's' ∉ line ∨ ∃ whole ∈ quietLines cfg, ∃ count, line = whole.take count) →
        lines.foldlM readLine before = some after → after.Calm := by
    intro lines
    induction lines with
    | nil => exact fun before after hcalm _ h => Option.some.inj h ▸ hcalm
    | cons line lines ih =>
      intro before after hcalm hlines hread
      rw [List.foldlM_cons] at hread
      obtain ⟨next, hnext, hrest⟩ := Option.bind_eq_some_iff.mp hread
      refine ih next after ?_ (fun l hl => hlines l (List.mem_cons_of_mem _ hl)) hrest
      rcases hlines line List.mem_cons_self with hno | ⟨whole, hwhole, count, rfl⟩
      · exact readLine_noS hcalm hno hnext
      · exact readLine_quietLine hcalm hwhole count hnext
  have hnofeed : ∀ line ∈ quietLines cfg, '\n' ∉ line := by
    intro line hline hmem
    exact absurd (quietLines_plain hline '\n' hmem) (by decide)
  have hlines : ∀ line ∈ getlines '\n' text,
      's' ∉ line ∨ ∃ whole ∈ quietLines cfg, ∃ count, line = whole.take count := by
    intro line hline
    rcases h.cases with ⟨count, rfl⟩ | ⟨rest, rfl, hrest⟩
    · exact Or.inr (mem_getlines_take_putlines hnofeed hline)
    · rw [quietHead, getlines_putlines_append hnofeed] at hline
      rcases List.mem_append.mp hline with hmem | hmem
      · exact Or.inr ⟨line, hmem, line.length, line.take_length.symm⟩
      · exact Or.inl fun hin => hrest (mem_of_mem_getlines hmem hin)
  have hcleared : p.clearMotors.resetToNone.AtRest := ⟨rfl, fun _ => by simp [clearMotors, resetToNone]⟩
  unfold FallbackPlanner.deserialize
  dsimp only
  split
  · exact hcleared
  · rename_i reading hread
    have hcalm := hfold _ _ _ ⟨by simp, by simp⟩ hlines hread
    split
    · exact hcleared
    · rename_i state hstate
      split
      · exact hcleared
      · exact ⟨hcalm.state state hstate, hcalm.motors⟩

/-- Whatever quiet file there is or is not, the plan loaded from it is at rest. -/
theorem AtRest.loadFrom {cfg : FallbackPlannerConfig} {file : Option (List Char)} (h : QuietFile cfg file)
    (p : FallbackPlanner n) : (p.loadFrom file).AtRest := by
  cases file with
  | none => exact ⟨rfl, fun _ => by simp [FallbackPlanner.loadFrom, clearMotors, resetToNone]⟩
  | some text => exact AtRest.deserialize (h text rfl) p

/-- A plan that was disarmed is at rest. -/
theorem AtRest.disarm (p : FallbackPlanner n) : p.disarm.AtRest := by
  refine ⟨rfl, fun i => ?_⟩
  change (if (p.motors i).configured then FallbackMotorState.pending else .unconfigured) ≠ .skipped
  split <;> decide

/-- A tick leaves a plan at rest, and asks for no start. -/
theorem AtRest.tick {p : FallbackPlanner n} (h : p.AtRest) (input : FallbackTickInput) :
    (p.tick input).1.AtRest ∧ (p.tick input).2 = none := by
  have hfold := foldl_trackOne_tracks input (List.finRange n) p
  have htrack : p.track input = (List.finRange n).foldl (trackOne input) p := by
    unfold track
    dsimp only
    rw [if_neg (by rw [hfold.state, h.state]; decide)]
  have hclosed : (p.track input).armed = false := by
    rw [htrack, armed, hfold.state, h.state]
    rfl
  have htick : p.tick input = (p.track input, none) := by
    unfold FallbackPlanner.tick
    dsimp only
    rw [if_pos hclosed]
  rw [htick]
  refine ⟨⟨by rw [htrack, hfold.state, h.state], fun i => ?_⟩, rfl⟩
  rw [htrack]
  rcases hfold.motors i with heq | ⟨-, heq | heq⟩
  · rw [heq]
    exact h.motors i
  · simp [heq]
  · simp [heq]

/-- Loading a motor's plan leaves a plan at rest. -/
theorem AtRest.setMotorPlan {p q : FallbackPlanner n} (h : p.AtRest) {motorId : ℤ} {targetUsteps : Int64}
    {holdS speedHz : ℚ} (hload : p.setMotorPlan motorId targetUsteps holdS speedHz = .ok q) : q.AtRest := by
  cases hindex : (index motorId : Option (Fin n)) with
  | none =>
    unfold FallbackPlanner.setMotorPlan at hload
    rw [hindex] at hload
    cases hload
  | some m =>
    obtain ⟨-, base, ⟨rfl, -⟩ | ⟨-, hover⟩, rfl⟩ := setMotorPlan_ok hindex hload
    · refine ⟨h.state, fun i => ?_⟩
      by_cases hi : i = m
      · simp [hi]
      · simpa [hi] using h.motors i
    · rw [h.state] at hover
      rcases hover with h | h <;> cases h

end FallbackPlanner

end Coatheal.Fallback
