import Coatheal.Ground.Dict
import Coatheal.Link.CommandExchange
import Coatheal.Library.Calendar
import Coatheal.Fallback.Planner
import Coatheal.Telemetry.Frame

/-!
# The reply to `STATUS`

A body is a row of fields, and a value of it may be a body of its own in braces. The
ground station reads back the fields it was made of, and the inner ones in a second
pass. The dispatcher takes the silence flag from the reply to `STATUS` and from the
acknowledgements of the switches; replies may be lost and may come in another order
than their commands were handled in.
-/

namespace Coatheal.Ground

open Library Library.Text Library.PyText
open Library.Lines (intercalate_cons mem_intercalate)
open Fallback (FallbackPlanState)
open Link (answer responseOf meant stripEnd)

/-- The key of a field. -/
structure BodyKey where
  text : List Char
  plain : PlainText text
  ne_nil : text ≠ []

/-- The value of a field: nothing to strip, and nothing that divides a body. -/
structure FieldText where
  text : List Char
  stripped : strip text = text
  undivided : ∀ c ∈ text, c ≠ ';' ∧ c ≠ '{' ∧ c ≠ '}'

/-- The fields of a body without braces. -/
abbrev PlainFields := List (BodyKey × FieldText)

/-- A value of a body, or a body in braces. -/
inductive BodyValue where
  | plain (value : FieldText)
  | group (fields : PlainFields)

/-- Plain fields as the onboard prints them. -/
def PlainFields.toText (fields : PlainFields) : List Char :=
  kvBody (fields.map fun field => (field.1.text, field.2.text))

/-- A value as the onboard prints it. -/
def BodyValue.toText : BodyValue → List Char
  | plain value => value.text
  | group fields => '{' :: (fields.toText ++ ['}'])

/-- A value as the ground station has it. -/
def BodyValue.read : BodyValue → List Char
  | plain value => value.text
  | group fields => fields.toText

/-- A body as the onboard prints it. -/
def bodyText (fields : List (BodyKey × BodyValue)) : List Char :=
  kvBody (fields.map fun field => (field.1.text, field.2.toText))

section Reading

/-- Characters of an item are collected inside braces. -/
theorem bodyItems_inside {inner : List Char} (h : ∀ c ∈ inner, c ≠ '{' ∧ c ≠ '}') (current rest : List Char) :
    bodyItems 1 current (inner ++ rest) = bodyItems 1 (current ++ inner) rest := by
  induction inner generalizing current with
  | nil => rw [List.nil_append, List.append_nil]
  | cons c inner ih =>
    obtain ⟨⟨hopen, hclose⟩, hrest⟩ := List.forall_mem_cons.mp h
    rw [List.cons_append, bodyItems, if_neg hopen, if_neg hclose, if_neg fun hc => one_ne_zero hc.2, ih hrest,
      List.append_assoc]
    rfl

/-- A part of an item that leaves the braces as it found them is collected. -/
def Collected (piece : List Char) : Prop :=
  ∀ current rest, bodyItems 0 current (piece ++ rest) = bodyItems 0 (current ++ piece) rest

/-- Without braces and semicolons a part is collected. -/
theorem collected_plain {piece : List Char} (h : ∀ c ∈ piece, c ≠ ';' ∧ c ≠ '{' ∧ c ≠ '}') : Collected piece :=
  bodyItems_append h

/-- Parts that are collected are collected one after the other. -/
theorem Collected.append {front back : List Char} (hfront : Collected front) (hback : Collected back) :
    Collected (front ++ back) := by
  intro current rest
  rw [List.append_assoc, hfront, hback, List.append_assoc]

/-- A body in braces is collected, with its semicolons. -/
theorem collected_group {inner : List Char} (h : ∀ c ∈ inner, c ≠ '{' ∧ c ≠ '}') :
    Collected ('{' :: (inner ++ ['}'])) := by
  intro current rest
  have hopen : bodyItems 0 current ('{' :: (inner ++ ['}']) ++ rest) =
      bodyItems 1 (current ++ ['{']) (inner ++ '}' :: rest) := by
    rw [List.cons_append, bodyItems, if_pos rfl, if_neg (by decide), List.append_assoc]
    rfl
  rw [hopen, bodyItems_inside h, bodyItems, if_neg (by decide), if_pos rfl, if_neg (by decide), List.append_assoc,
    List.append_assoc]
  rfl

/-- The items of a body are those it is made of. -/
theorem bodyItems_collected {pieces : List (List Char)} (hsome : ∀ piece ∈ pieces, piece ≠ [])
    (h : ∀ piece ∈ pieces, Collected piece) : bodyItems 0 [] ([';'].intercalate pieces) = pieces := by
  induction pieces with
  | nil => rfl
  | cons piece pieces ih =>
    obtain ⟨hpiece, hpieces⟩ := List.forall_mem_cons.mp h
    obtain ⟨hne, hnes⟩ := List.forall_mem_cons.mp hsome
    cases pieces with
    | nil =>
      have hitems := hpiece [] []
      rw [List.append_nil, List.nil_append] at hitems
      rw [List.intercalate_singleton, hitems, bodyItems, if_neg hne]
    | cons next pieces =>
      rw [intercalate_cons, hpiece, List.nil_append, bodyItems, if_pos (by decide)]
      exact congrArg (piece :: ·) (ih hnes hpieces)

/-- A plain body holds no braces. -/
theorem PlainFields.no_braces (fields : PlainFields) : ∀ c ∈ fields.toText, c ≠ '{' ∧ c ≠ '}' := by
  intro c hc
  rcases mem_intercalate hc with rfl | ⟨piece, hpiece, hc⟩
  · decide
  · obtain ⟨pair, hpair, rfl⟩ := List.mem_map.mp hpiece
    obtain ⟨field, -, rfl⟩ := List.mem_map.mp hpair
    rcases List.mem_append.mp hc with hkey | hvalue
    · exact ⟨(field.1.plain c hkey).2.2.1, (field.1.plain c hkey).2.2.2.1⟩
    · rcases List.mem_cons.mp hvalue with rfl | hvalue
      · decide
      · exact ⟨(field.2.undivided c hvalue).2.1, (field.2.undivided c hvalue).2.2⟩

/-- A text with nothing to strip. -/
def Tight (text : List Char) : Prop :=
  (∀ c ∈ text.head?, PyText.isSpace c = false) ∧ ∀ c ∈ text.getLast?, PyText.isSpace c = false

/-- Nothing is stripped of it. -/
theorem Tight.strip_eq {text : List Char} (h : Tight text) : strip text = text := trim_eq_self_of_ends h.1 h.2

/-- Two texts with nothing to strip, around a character that is none to strip. -/
theorem Tight.append_cons {front back : List Char} {c : Char} (hfront : Tight front) (hc : PyText.isSpace c = false)
    (hback : Tight back) : Tight (front ++ c :: back) := by
  constructor
  · cases front with
    | nil => exact fun d hd => Option.some.inj hd ▸ hc
    | cons first front => exact hfront.1
  · rw [List.getLast?_append, List.getLast?_cons]
    cases hlast : back.getLast? with
    | none => exact fun d hd => Option.some.inj hd ▸ hc
    | some last => exact fun d hd => Option.some.inj hd ▸ hback.2 last hlast

/-- Nothing is to strip of pieces with semicolons between when there is nothing to strip of any. -/
theorem tight_intercalate {pieces : List (List Char)} (h : ∀ piece ∈ pieces, Tight piece) :
    Tight ([';'].intercalate pieces) := by
  induction pieces with
  | nil => exact ⟨nofun, nofun⟩
  | cons piece pieces ih =>
    obtain ⟨hpiece, hpieces⟩ := List.forall_mem_cons.mp h
    cases pieces with
    | nil => rwa [List.intercalate_singleton]
    | cons next pieces =>
      rw [intercalate_cons]
      exact hpiece.append_cons (by decide) (ih hpieces)

/-- A key has nothing to strip. -/
theorem BodyKey.tight (key : BodyKey) : Tight key.text :=
  ⟨fun c hc => (key.plain c (List.mem_of_head? hc)).1, fun c hc => (key.plain c (List.mem_of_getLast? hc)).1⟩

/-- A body in braces ends with a brace. -/
theorem getLast?_group (fields : PlainFields) : (BodyValue.group fields).toText.getLast? = some '}' :=
  @List.getLast?_concat _ ('{' :: fields.toText) '}'

/-- A value has nothing to strip. -/
theorem BodyValue.tight (value : BodyValue) : Tight value.toText := by
  cases value with
  | plain value => exact ends_of_trim_eq_self value.stripped
  | group fields =>
    constructor
    · exact fun c hc => Option.some.inj hc ▸ rfl
    · rw [getLast?_group]
      exact fun c hc => Option.some.inj hc ▸ rfl

/-- A value is collected whole. -/
theorem BodyValue.collected (value : BodyValue) : Collected value.toText := by
  cases value with
  | plain value => exact collected_plain value.undivided
  | group fields => exact collected_group fields.no_braces

/-- A field is collected whole. -/
theorem collected_field (key : BodyKey) (value : BodyValue) : Collected (key.text ++ '=' :: value.toText) := by
  have hkey : Collected (key.text ++ ['=']) := by
    refine collected_plain fun c hc => ?_
    rcases List.mem_append.mp hc with hname | hequals
    · obtain ⟨-, hsemicolon, hopen, hclose, -⟩ := key.plain c hname
      exact ⟨hsemicolon, hopen, hclose⟩
    · rw [List.mem_singleton.mp hequals]
      decide
  have hfield : key.text ++ '=' :: value.toText = (key.text ++ ['=']) ++ value.toText := by simp
  rw [hfield]
  exact hkey.append value.collected

/-- A field is read as it was meant, without the braces around an inner body. -/
theorem bodyPair_value (key : BodyKey) (value : BodyValue) :
    bodyPair (key.text ++ '=' :: value.toText) = (key.text, value.read) := by
  have hequals : '=' ∉ key.text := fun hmem => (key.plain '=' hmem).2.2.2.2 rfl
  unfold bodyPair
  rw [cut_append hequals]
  dsimp only
  rw [key.plain.strip, value.tight.strip_eq]
  cases value with
  | plain value =>
    rw [if_neg]
    · rfl
    · rintro ⟨hhead, -⟩
      exact (value.undivided '{' (List.mem_of_head? hhead)).2.1 rfl
  | group fields =>
    have hinner : (BodyValue.group fields).toText.tail.dropLast = fields.toText := List.dropLast_concat
    rw [if_pos ⟨rfl, getLast?_group fields⟩, hinner]
    rfl

/-- A body is the texts of its fields. -/
theorem bodyText_eq (fields : List (BodyKey × BodyValue)) :
    bodyText fields = [';'].intercalate (fields.map fun field => field.1.text ++ '=' :: field.2.toText) := by
  unfold bodyText kvBody
  rw [List.map_map]
  rfl

/-- The text of a field has nothing to strip. -/
theorem tight_field {fields : List (BodyKey × BodyValue)} :
    ∀ piece ∈ fields.map (fun field => field.1.text ++ '=' :: field.2.toText), Tight piece := by
  intro piece hpiece
  obtain ⟨field, -, rfl⟩ := List.mem_map.mp hpiece
  exact field.1.tight.append_cons (by decide) field.2.tight

/-- A body has nothing to strip. -/
theorem tight_bodyText (fields : List (BodyKey × BodyValue)) : Tight (bodyText fields) := by
  rw [bodyText_eq]
  exact tight_intercalate tight_field

/-- A body is read as the fields it is made of. -/
theorem splitKvBody_bodyText (fields : List (BodyKey × BodyValue)) :
    splitKvBody (bodyText fields) = fields.map fun field => (field.1.text, field.2.read) := by
  have hcollected : ∀ piece ∈ fields.map (fun field => field.1.text ++ '=' :: field.2.toText), Collected piece := by
    intro piece hpiece
    obtain ⟨field, -, rfl⟩ := List.mem_map.mp hpiece
    exact collected_field field.1 field.2
  have hsome : ∀ piece ∈ fields.map (fun field => field.1.text ++ '=' :: field.2.toText), piece ≠ [] := by
    intro piece hpiece
    obtain ⟨field, -, rfl⟩ := List.mem_map.mp hpiece
    simp
  have hstrip : (fields.map fun field => field.1.text ++ '=' :: field.2.toText).map strip =
      fields.map fun field => field.1.text ++ '=' :: field.2.toText :=
    (List.map_congr_left fun piece hpiece => (tight_field piece hpiece).strip_eq).trans (List.map_id _)
  have hkept : (fields.map fun field => field.1.text ++ '=' :: field.2.toText).filter (· ≠ []) =
      fields.map fun field => field.1.text ++ '=' :: field.2.toText :=
    List.filter_eq_self.mpr fun piece hpiece => decide_eq_true (hsome piece hpiece)
  unfold splitKvBody
  rw [(tight_bodyText fields).strip_eq, bodyText_eq, bodyItems_collected hsome hcollected, hstrip, hkept, List.map_map]
  exact List.map_congr_left fun field _ => bodyPair_value field.1 field.2

/-- Plain fields are a body of values. -/
theorem PlainFields.toText_eq (fields : PlainFields) :
    fields.toText = bodyText (fields.map fun field => (field.1, .plain field.2)) := by
  unfold PlainFields.toText bodyText
  rw [List.map_map]
  rfl

/-- A plain body is read as the fields it is made of. -/
theorem PlainFields.splitKvBody_toText (fields : PlainFields) :
    splitKvBody fields.toText = fields.map fun field => (field.1.text, field.2.text) := by
  rw [fields.toText_eq, splitKvBody_bodyText, List.map_map]
  rfl

/-- A body whose keys are different is the dictionary of its fields. -/
theorem parseKvBody_bodyText {fields : List (BodyKey × BodyValue)} (h : (fields.map fun field => field.1.text).Nodup) :
    parseKvBody (bodyText fields) = fields.map fun field => (field.1.text, field.2.read) := by
  have hkept : (fields.map fun field => (field.1.text, field.2.read)).filter (·.1 ≠ []) =
      fields.map fun field => (field.1.text, field.2.read) := by
    refine List.filter_eq_self.mpr fun pair hpair => decide_eq_true ?_
    obtain ⟨field, -, rfl⟩ := List.mem_map.mp hpair
    exact field.1.ne_nil
  unfold parseKvBody
  rw [splitKvBody_bodyText, hkept]
  refine foldl_set ?_
  rw [List.nil_append, List.map_map]
  exact h

/-- A body has nothing to strip. -/
theorem stripEnd_bodyText (fields : List (BodyKey × BodyValue)) : stripEnd (bodyText fields) = bodyText fields := by
  refine List.rdropWhile_eq_self_iff.mpr fun hne => ?_
  rw [(tight_bodyText fields).2 _ (List.getLast?_eq_some_getLast hne)]
  exact Bool.false_ne_true

end Reading

section Report

instance PlainText.decidable (text : List Char) : Decidable (PlainText text) := List.decidableBAll _ text

/-- A key by its name. -/
def bodyKey (name : String) (h : name.toList ≠ [] ∧ PlainText name.toList := by decide) : BodyKey :=
  ⟨name.toList, h.2, h.1⟩

/-- A plain text is a value. -/
def FieldText.ofPlain (text : List Char) (h : PlainText text) : FieldText :=
  ⟨text, h.strip, fun c hc => ⟨(h c hc).2.1, (h c hc).2.2.1, (h c hc).2.2.2.1⟩⟩

/-- A printed number is plain. -/
theorem plainText_showNat (value : ℕ) : PlainText (showNat value) := fun _ hc => (showNat_plain hc).1

/-- A printed number with its sign is plain. -/
theorem plainText_showInt (value : ℤ) : PlainText (showInt value) := by
  intro c hc
  rcases showInt_chars hc with hdigit | rfl
  · have hspace := isSpace_of_isDigit hdigit
    refine ⟨hspace, ?_, ?_, ?_, ?_⟩
    all_goals
      rintro rfl
      exact absurd hdigit (by decide)
  · decide

/-- Two plain texts with a slash between are plain. -/
theorem PlainText.slash {front back : List Char} (hfront : PlainText front) (hback : PlainText back) :
    PlainText (front ++ '/' :: back) := by
  intro c hc
  rcases List.mem_append.mp hc with hc | hc
  · exact hfront c hc
  · rcases List.mem_cons.mp hc with rfl | hc
    · decide
    · exact hback c hc

/-- A flag is printed as a digit. -/
def flagText (flag : Bool) : FieldText :=
  .ofPlain (if flag then ['1'] else ['0']) (by cases flag <;> decide)

/-- A count as a value. -/
def countText (value : ℕ) : FieldText := .ofPlain (showNat value) (plainText_showNat value)

/-- A measure as a value. -/
def measureText (value : ℚ) : FieldText := .ofPlain (formatG value) (plainText_formatG value)

/-- A count out of another one. -/
def shareText (value : ℤ) (all : ℕ) : FieldText :=
  .ofPlain (showInt value ++ '/' :: showNat all) ((plainText_showInt value).slash (plainText_showNat all))

/-- A phase as a value. -/
def phaseText (phase : MissionPhase) : FieldText :=
  .ofPlain (Telemetry.phaseName phase) (by cases phase <;> decide)

/-- A mode as a value. -/
def modeText (mode : SystemMode) : FieldText :=
  .ofPlain (Telemetry.modeName mode) (by cases mode <;> decide)

/-- The state of the fallback plan as a value. -/
def planText (plan : FallbackPlanState) : FieldText :=
  .ofPlain plan.toText.toList (by cases plan <;> decide)

/-- The bytes of a full bucket on the onboard's port. -/
def kOnboardEgressBurstBytes : ℕ := 1000

/-- What a motor's sequence is at. -/
structure SequenceReport where
  zeroed : Bool
  running : Bool
  paused : Bool
  activeName : FieldText
  stepIndex : ℕ
  fault : FieldText

/-- `SequenceStatus`. -/
def sequenceStatus (motor : ℕ) (sequence : SequenceReport) : PlainFields :=
  [(bodyKey "motor", countText motor), (bodyKey "zeroed", flagText sequence.zeroed),
    (bodyKey "running", flagText sequence.running), (bodyKey "paused", flagText sequence.paused),
    (bodyKey "name", sequence.activeName), (bodyKey "step", countText sequence.stepIndex)] ++
    if sequence.fault.text = [] then [] else [(bodyKey "fault", sequence.fault)]

/-- What `STATUS` tells, but for the radio. -/
structure StatusReport where
  phase : MissionPhase
  mode : SystemMode
  manualFirst : Bool
  linkSeen : Bool
  linkLossS : ℚ
  fallbackActive : Bool
  plan : FallbackPlanState
  benchMode : Bool
  debugArmed : Bool
  currentHost : FieldText
  queueDepth : ℕ
  tickHz : ℚ
  linkCodec : FieldText
  inWindow : ℕ
  shareBytes : ℕ
  ackTimeouts : ℕ
  linkCap : FieldText
  egressTokens : ℤ
  simulated : Bool
  i2cOk : Bool
  sampleTempOk : Bool
  pwmOk : Bool
  stepperOk : Bool
  energyConsumedWh : ℚ
  energyBudgetWh : ℚ
  budgetExhausted : Bool
  sequences : List SequenceReport

/-- The fields of `STATUS` that stand in front of the sequences. -/
def statusHead (report : StatusReport) (transmitEnabled : Bool) : PlainFields :=
  [(bodyKey "phase", phaseText report.phase), (bodyKey "mode", modeText report.mode),
    (bodyKey "manual_first", flagText report.manualFirst), (bodyKey "link_seen", flagText report.linkSeen),
    (bodyKey "link_loss_s", measureText report.linkLossS), (bodyKey "fallback_active", flagText report.fallbackActive),
    (bodyKey "plan", planText report.plan), (bodyKey "bench_mode", flagText report.benchMode),
    (bodyKey "debug_armed", flagText report.debugArmed), (bodyKey "telemetry_target", report.currentHost),
    (bodyKey "queue_depth", countText report.queueDepth), (bodyKey "tick_hz", measureText report.tickHz),
    (bodyKey "link_codec", report.linkCodec), (bodyKey "link_bytes", shareText report.inWindow report.shareBytes),
    (bodyKey "link_ack_timeouts", countText report.ackTimeouts), (bodyKey "link_cap", report.linkCap),
    (bodyKey "link_tokens", shareText report.egressTokens kOnboardEgressBurstBytes),
    (bodyKey "silence", flagText !transmitEnabled), (bodyKey "simulated", flagText report.simulated),
    (bodyKey "i2c_ok", flagText report.i2cOk), (bodyKey "sample_temp_ok", flagText report.sampleTempOk),
    (bodyKey "pwm_ok", flagText report.pwmOk), (bodyKey "stepper_ok", flagText report.stepperOk),
    (bodyKey "energy_wh", measureText report.energyConsumedWh),
    (bodyKey "energy_budget_wh", measureText report.energyBudgetWh),
    (bodyKey "budget_exhausted", flagText report.budgetExhausted)]

/-- The key of a motor's sequence. -/
def sequenceKey (motor : ℕ) : BodyKey where
  text := "seq".toList ++ showNat motor
  plain := by
    intro c hc
    rcases List.mem_append.mp hc with hname | hnumber
    · have hall : PlainText "seq".toList := by decide
      exact hall c hname
    · exact plainText_showNat motor c hnumber
  ne_nil := by simp

/-- The fields of `STATUS`. -/
def statusFields (report : StatusReport) (transmitEnabled : Bool) : List (BodyKey × BodyValue) :=
  (statusHead report transmitEnabled).map (fun field => (field.1, .plain field.2)) ++
    report.sequences.zipIdx.map fun sequence => (sequenceKey sequence.2, .group (sequenceStatus sequence.2 sequence.1))

/-- The answer to `STATUS`. -/
def status (report : StatusReport) (transmitEnabled : Bool) : List Char :=
  answer true "STATUS".toList (bodyText (statusFields report transmitEnabled))

/-- The names of the fields in front of the sequences. -/
def statusNames : List String :=
  ["phase", "mode", "manual_first", "link_seen", "link_loss_s", "fallback_active", "plan", "bench_mode", "debug_armed",
    "telemetry_target", "queue_depth", "tick_hz", "link_codec", "link_bytes", "link_ack_timeouts", "link_cap", "link_tokens",
    "silence", "simulated", "i2c_ok", "sample_temp_ok", "pwm_ok", "stepper_ok", "energy_wh", "energy_budget_wh",
    "budget_exhausted"]

/-- The keys of a status are different. -/
theorem nodup_statusFields (report : StatusReport) (transmitEnabled : Bool) :
    ((statusFields report transmitEnabled).map fun field => field.1.text).Nodup := by
  have hfixed : (statusHead report transmitEnabled).map (fun field => field.1.text) = statusNames.map String.toList := rfl
  have hnumbered : (report.sequences.zipIdx.map fun sequence => (sequenceKey sequence.2).text) =
      (List.range report.sequences.length).map fun motor => (sequenceKey motor).text := by
    rw [List.range_eq_range', ← List.zipIdx_map_snd, List.map_map]
    rfl
  unfold statusFields
  rw [List.map_append, List.map_map, List.map_map]
  change (List.map (fun field => field.1.text) (statusHead report transmitEnabled) ++
    List.map (fun sequence => (sequenceKey sequence.2).text) report.sequences.zipIdx).Nodup
  rw [hfixed, hnumbered]
  refine List.nodup_append.mpr ⟨by decide, ?_, ?_⟩
  · refine List.nodup_range.map fun i j hij => ?_
    exact Calendar.showNat_injective (List.append_cancel_left hij)
  · intro name hname key hkey heq
    obtain ⟨motor, -, rfl⟩ := List.mem_map.mp hkey
    have hnone : ∀ name ∈ statusNames.map String.toList, name.take 3 ≠ "seq".toList := by decide
    exact hnone name hname (by rw [heq]; rfl)

/-- The body of a status is read as its fields. -/
theorem parseKvBody_status (report : StatusReport) (transmitEnabled : Bool) (command : List Char) :
    parseKvBody (responseOf command (strip (status report transmitEnabled))).body =
      (statusFields report transmitEnabled).map fun field => (field.1.text, field.2.read) := by
  unfold status
  rw [Link.responseOf_answer (by decide)]
  change parseKvBody (stripEnd (bodyText (statusFields report transmitEnabled))) = _
  rw [stripEnd_bodyText, parseKvBody_bodyText (nodup_statusFields report transmitEnabled)]

/-- The silence flag of a status. -/
theorem get?_silence (report : StatusReport) (transmitEnabled : Bool) (command : List Char) :
    (parseKvBody (responseOf command (strip (status report transmitEnabled))).body).get? "silence".toList =
      some (flagText !transmitEnabled).text := by
  rw [parseKvBody_status]
  rfl

/-- The ground station reads every field of a status as the onboard meant it, and in a second pass every field of the sequence of
each motor. -/
theorem read_status (report : StatusReport) (transmitEnabled : Bool) (command : List Char) :
    (∀ field : Fin (statusHead report transmitEnabled).length,
      (parseKvBody (responseOf command (strip (status report transmitEnabled))).body).get?
          ((statusHead report transmitEnabled).get field).1.text =
        some ((statusHead report transmitEnabled).get field).2.text) ∧
      ∀ motor : Fin report.sequences.length,
        ((parseKvBody (responseOf command (strip (status report transmitEnabled))).body).get?
            (sequenceKey motor).text).map splitKvBody =
          some ((sequenceStatus motor (report.sequences.get motor)).map fun field => (field.1.text, field.2.text)) := by
  have hkeys : (Dict.keys ((statusFields report transmitEnabled).map fun field => (field.1.text, field.2.read))).Nodup := by
    unfold Dict.keys
    rw [List.map_map]
    exact nodup_statusFields report transmitEnabled
  rw [parseKvBody_status]
  constructor
  · intro field
    refine (Dict.get?_eq_some_iff hkeys).mpr (List.mem_map.mpr ⟨(_, .plain _), List.mem_append_left _ ?_, rfl⟩)
    exact List.mem_map.mpr ⟨_, List.get_mem _ field, rfl⟩
  · intro motor
    have hsequence : (report.sequences.get motor, motor.val) ∈ report.sequences.zipIdx :=
      List.mem_zipIdx_iff_getElem?.mpr (List.getElem?_eq_getElem motor.isLt)
    have hmem : (sequenceKey motor, BodyValue.group (sequenceStatus motor (report.sequences.get motor))) ∈
        statusFields report transmitEnabled :=
      List.mem_append_right _ (List.mem_map.mpr ⟨_, hsequence, rfl⟩)
    have hvalue := (Dict.get?_eq_some_iff hkeys).mpr (List.mem_map.mpr ⟨_, hmem, rfl⟩)
    rw [hvalue]
    exact congrArg some (PlainFields.splitKvBody_toText _)

end Report

/-- What the ground station asks of the radio. -/
inductive Asked where
  | silence
  | resume
  | status (report : StatusReport)

namespace Asked

/-- The command as the window sends it. -/
def command : Asked → List Char
  | silence => "RADIO_SILENCE".toList
  | resume => "RADIO_RESUME".toList
  | status _ => "STATUS".toList

/-- Whether the onboard transmits after the command. -/
def transmits (before : Bool) : Asked → Bool
  | silence => false
  | resume => true
  | status _ => before

/-- The answer of the onboard. -/
def answer (transmitEnabled : Bool) : Asked → List Char
  | silence => Link.answer true "RADIO_SILENCE".toList "radio silent".toList
  | resume => Link.answer true "RADIO_RESUME".toList "radio resumed".toList
  | status report => Ground.status report transmitEnabled

/-- The command leaves the radio as it is. -/
def isStatus : Asked → Bool
  | status _ => true
  | _ => false

end Asked

/-- What the dispatcher reads off a reply. -/
def replyOf (response : CommandResponse) : Reply where
  ok := response.ok
  silence := ((parseKvBody response.body).get? "silence".toList).map String.ofList

/-- A reply on its way, with the command it is to. -/
structure SentReply where
  command : List Char
  text : List Char

/-- The flag that a reply sets when it is read. -/
def SentReply.flag (reply : SentReply) : Option Bool :=
  CommandDispatcher.trackSilence reply.command (replyOf (responseOf reply.command (strip reply.text)))

/-- Whether the onboard transmits and its flag file, the flag of the dispatcher, and the replies on their way. -/
structure SilenceLink where
  transmitEnabled : Bool
  flagFile : Bool
  silence : Bool
  replies : List SentReply

/-- The onboard handles a command and may fail to store its flag, a reply is lost or read, or the onboard restarts. -/
inductive SilenceStep where
  | handle (asked : Asked) (stored : Bool)
  | lose (index : ℕ)
  | read (index : ℕ)
  | restart

namespace SilenceStep

/-- Nobody switches the radio. -/
def keepsRadio : SilenceStep → Bool
  | handle asked _ => asked.isStatus
  | _ => true

/-- The onboard goes on. -/
def keepsRunning : SilenceStep → Bool
  | restart => false
  | _ => true

end SilenceStep

namespace SilenceLink

/-- A step of the link. -/
def step (s : SilenceLink) : SilenceStep → SilenceLink
  | .handle asked stored =>
    let transmits := asked.transmits s.transmitEnabled
    { s with
      transmitEnabled := transmits
      flagFile := if stored && !asked.isStatus then !transmits else s.flagFile
      replies := s.replies ++ [⟨asked.command, asked.answer transmits⟩] }
  | .lose index => { s with replies := s.replies.eraseIdx index }
  | .read index =>
    match s.replies[index]? with
    | none => s
    | some reply => { s with silence := reply.flag.getD s.silence, replies := s.replies.eraseIdx index }
  | .restart => { s with transmitEnabled := !s.flagFile }

/-- Some steps. -/
def run (s : SilenceLink) (steps : List SilenceStep) : SilenceLink := steps.foldl step s

/-- A reply sets the flag to what it tells. -/
theorem flag_answer (asked : Asked) (before : Bool) :
    SentReply.flag ⟨asked.command, asked.answer (asked.transmits before)⟩ = some (!asked.transmits before) := by
  cases asked with
  | silence => cases before <;> decide
  | resume => cases before <;> decide
  | status report =>
    have hok : (responseOf "STATUS".toList (strip (Ground.status report before))).ok = true := by
      unfold Ground.status
      rw [Link.responseOf_answer (by decide)]
      rfl
    change CommandDispatcher.trackSilence "STATUS".toList (replyOf (responseOf "STATUS".toList _)) = some (!before)
    unfold replyOf
    rw [Asked.answer, Asked.transmits, get?_silence, hok]
    cases before <;> decide

/-- The replies on their way tell how the radio is. -/
def Current (s : SilenceLink) : Prop := ∀ reply ∈ s.replies, reply.flag = some (!s.transmitEnabled)

/-- The flag file tells how the radio is, or it is not asked. -/
def Lasting (s : SilenceLink) (steps : List SilenceStep) : Prop :=
  s.flagFile = !s.transmitEnabled ∨ ∀ step ∈ steps, step.keepsRunning = true

/-- What a step keeps that does not switch the radio. -/
structure Kept (s after : SilenceLink) : Prop where
  transmitEnabled : after.transmitEnabled = s.transmitEnabled
  flagFile : after.flagFile = s.flagFile
  current : s.Current → after.Current
  agrees : s.Current → s.silence = !s.transmitEnabled → after.silence = !after.transmitEnabled

/-- A step that does not switch the radio keeps it, and keeps the replies true. -/
theorem kept_step {s : SilenceLink} {step : SilenceStep} (hkeeps : step.keepsRadio = true)
    (hlasting : s.flagFile = (!s.transmitEnabled) ∨ step.keepsRunning = true) : Kept s (s.step step) := by
  have herased (index : ℕ) (h : s.Current) : ∀ reply ∈ s.replies.eraseIdx index, reply.flag = some (!s.transmitEnabled) :=
    fun reply hreply => h reply (List.mem_of_mem_eraseIdx hreply)
  cases step with
  | handle asked stored =>
    cases asked with
    | silence => cases hkeeps
    | resume => cases hkeeps
    | status report =>
      refine ⟨rfl, ?_, fun hcurrent reply hreply => ?_, fun _ hagrees => hagrees⟩
      · exact if_neg (by simp [Asked.isStatus])
      · rcases List.mem_append.mp hreply with hold | hnew
        · exact hcurrent reply hold
        · rw [List.mem_singleton.mp hnew]
          exact flag_answer (.status report) s.transmitEnabled
  | lose index => exact ⟨rfl, rfl, herased index, fun _ hagrees => hagrees⟩
  | read index =>
    rw [SilenceLink.step]
    rcases hreply : s.replies[index]? with _ | reply
    · exact ⟨rfl, rfl, id, fun _ hagrees => hagrees⟩
    · refine ⟨rfl, rfl, herased index, fun hcurrent _ => ?_⟩
      change reply.flag.getD s.silence = !s.transmitEnabled
      rw [hcurrent reply (List.mem_of_getElem? hreply), Option.getD_some]
  | restart =>
    rcases hlasting with hsame | hnever
    · have htransmits : (!s.flagFile) = s.transmitEnabled := by rw [hsame, Bool.not_not]
      refine ⟨htransmits, rfl, fun hcurrent => ?_, fun _ hagrees => ?_⟩
      · change ∀ reply ∈ s.replies, reply.flag = some (!!s.flagFile)
        rw [htransmits]
        exact hcurrent
      · change s.silence = !!s.flagFile
        rw [htransmits]
        exact hagrees
    · cases hnever

/-- Steps that do not switch the radio keep it, and keep the replies true. -/
theorem kept_run {s : SilenceLink} {steps : List SilenceStep} (hkeeps : ∀ step ∈ steps, step.keepsRadio = true)
    (hlasting : s.Lasting steps) : Kept s (s.run steps) := by
  induction steps generalizing s with
  | nil => exact ⟨rfl, rfl, id, fun _ hagrees => hagrees⟩
  | cons step steps ih =>
    obtain ⟨hfirst, hrest⟩ := List.forall_mem_cons.mp hkeeps
    have hstep : Kept s (s.step step) :=
      kept_step hfirst (hlasting.imp id fun hnever => hnever step List.mem_cons_self)
    have hnext : (s.step step).Lasting steps := by
      rcases hlasting with hsame | hnever
      · exact Or.inl (by rw [hstep.flagFile, hstep.transmitEnabled, hsame])
      · exact Or.inr fun later hlater => hnever later (List.mem_cons_of_mem _ hlater)
    have hrun := ih hrest hnext
    exact ⟨hrun.transmitEnabled.trans hstep.transmitEnabled, hrun.flagFile.trans hstep.flagFile,
      fun hcurrent => hrun.current (hstep.current hcurrent),
      fun hcurrent hagrees => hrun.agrees (hstep.current hcurrent) (hstep.agrees hcurrent hagrees)⟩

/-- Reading a reply that tells how the radio is makes the dispatcher agree. -/
theorem agrees_read {s : SilenceLink} (hcurrent : s.Current) {index : ℕ} (hindex : index < s.replies.length) :
    (s.step (.read index)).silence = !(s.step (.read index)).transmitEnabled := by
  have hreply : s.replies[index]? = some s.replies[index] := List.getElem?_eq_getElem hindex
  rw [step, hreply]
  change s.replies[index].flag.getD s.silence = !s.transmitEnabled
  rw [hcurrent _ (List.getElem_mem hindex), Option.getD_some]

/-- Handling a command while no reply is on its way leaves one on its way that tells how the radio is. -/
theorem current_handle {s : SilenceLink} (hidle : s.replies = []) (asked : Asked) (stored : Bool) :
    (s.step (.handle asked stored)).Current := by
  intro reply hreply
  change reply ∈ s.replies ++ [⟨asked.command, asked.answer (asked.transmits s.transmitEnabled)⟩] at hreply
  rw [hidle, List.nil_append] at hreply
  rw [List.mem_singleton.mp hreply]
  exact flag_answer asked s.transmitEnabled

/-- Once a reply is read to a command that was handled while none was on its way, or to a later one, the dispatcher's flag tells
whether the onboard is silent, and goes on to tell it until the radio is switched again: whichever replies are lost, in whatever
order the others are read, and over restarts of the onboard when its flag file told the truth. -/
theorem silence_run {s : SilenceLink} (hidle : s.replies = []) (asked : Asked) (stored : Bool)
    {before after : List SilenceStep} {index : ℕ} (hkeeps : ∀ step ∈ before ++ after, step.keepsRadio = true)
    (hlasting : (s.step (.handle asked stored)).Lasting (before ++ after))
    (hindex : index < (s.run (.handle asked stored :: before)).replies.length) :
    (s.run (.handle asked stored :: before ++ .read index :: after)).transmitEnabled = asked.transmits s.transmitEnabled ∧
      (s.run (.handle asked stored :: before ++ .read index :: after)).silence = !asked.transmits s.transmitEnabled := by
  have hlater (steps : List SilenceStep) (hsub : ∀ step ∈ steps, step ∈ before ++ after) :
      (s.step (.handle asked stored)).Lasting steps :=
    hlasting.imp id fun hnever step hstep => hnever step (hsub step hstep)
  have hbefore : Kept (s.step (.handle asked stored)) (s.run (.handle asked stored :: before)) :=
    kept_run (fun step hstep => hkeeps step (List.mem_append_left _ hstep))
      (hlater before fun step hstep => List.mem_append_left _ hstep)
  have hcurrent := hbefore.current (current_handle hidle asked stored)
  generalize hmiddle : s.run (.handle asked stored :: before) = middle at hbefore hcurrent hindex
  have hread : Kept middle (middle.step (.read index)) := kept_step rfl (Or.inr rfl)
  have hagrees := agrees_read hcurrent hindex
  have hrest : Kept (middle.step (.read index)) ((middle.step (.read index)).run after) := by
    refine kept_run (fun step hstep => hkeeps step (List.mem_append_right _ hstep)) ?_
    rcases hlater after (fun step hstep => List.mem_append_right _ hstep) with hsame | hnever
    · exact Or.inl (by rw [hread.flagFile, hread.transmitEnabled, hbefore.flagFile, hbefore.transmitEnabled, hsame])
    · exact Or.inr hnever
  have hrun : s.run (.handle asked stored :: before ++ .read index :: after) = (middle.step (.read index)).run after := by
    rw [← hmiddle, run, List.foldl_append]
    rfl
  have htransmits : ((middle.step (.read index)).run after).transmitEnabled = asked.transmits s.transmitEnabled := by
    rw [hrest.transmitEnabled, hread.transmitEnabled, hbefore.transmitEnabled]
    rfl
  rw [hrun]
  refine ⟨htransmits, ?_⟩
  rw [hrest.agrees (hread.current hcurrent) hagrees, htransmits]

/-- What an idle onboard tells. -/
def idleReport : StatusReport where
  phase := .boot
  mode := .standby
  manualFirst := true
  linkSeen := true
  linkLossS := 0
  fallbackActive := false
  plan := .none
  benchMode := false
  debugArmed := false
  currentHost := .ofPlain [] (by decide)
  queueDepth := 0
  tickHz := 1
  linkCodec := .ofPlain [] (by decide)
  inWindow := 0
  shareBytes := 1150
  ackTimeouts := 0
  linkCap := .ofPlain "off".toList (by decide)
  egressTokens := 1000
  simulated := true
  i2cOk := true
  sampleTempOk := true
  pwmOk := true
  stepperOk := true
  energyConsumedWh := 0
  energyBudgetWh := 0
  budgetExhausted := false
  sequences := []

/-- The reply to a switch is lost and the onboard restarts; the status that was asked before tells the dispatcher. -/
theorem silence_run_lost :
    (SilenceLink.run ⟨true, false, false, []⟩
      [.handle .silence true, .handle (.status idleReport) true, .lose 0, .restart, .read 0]).silence = true := by
  have hrun := @silence_run ⟨true, false, false, []⟩ rfl .silence true
    [.handle (.status idleReport) true, .lose 0, .restart] [] 0 (by simp [SilenceStep.keepsRadio, Asked.isStatus])
    (Or.inl rfl) (Nat.one_pos)
  exact hrun.2

end SilenceLink

end Coatheal.Ground
