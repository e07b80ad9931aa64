import Mathlib
import Coatheal.Fallback.Planner
import Coatheal.Library.Decimal

/-!
# The plan file

One `key=value` line for the state and one for each configured motor. The
deadline clock is not written, so a restart begins it again. A text that cannot
be read leaves the planner with no plan.
-/

namespace Coatheal.Fallback

open Coatheal.Library Coatheal.Library.Text

/-- Every plan state. -/
def FallbackPlanState.all : List FallbackPlanState := [.none, .armed, .running, .done, .failed]

/-- Every motor state. -/
def FallbackMotorState.all : List FallbackMotorState :=
  [.unconfigured, .pending, .running, .done, .skipped, .failed]

/-- The plan state with a given name. -/
def parseFallbackPlanState (text : List Char) : Option FallbackPlanState :=
  FallbackPlanState.all.find? fun state => text = state.toText.toList

/-- The motor state with a given name. -/
def parseFallbackMotorState (text : List Char) : Option FallbackMotorState :=
  FallbackMotorState.all.find? fun state => text = state.toText.toList

/-- The name of a plan state is read back. -/
theorem parseFallbackPlanState_toText (state : FallbackPlanState) :
    parseFallbackPlanState state.toText.toList = some state := by
  cases state <;> decide

/-- The name of a motor state is read back. -/
theorem parseFallbackMotorState_toText (state : FallbackMotorState) :
    parseFallbackMotorState state.toText.toList = some state := by
  cases state <;> decide

/-- The white space `TrimLine` takes off. -/
def isBlank (c : Char) : Bool := c ∈ [' ', '\t', '\r', '\n']

/-- A key, an equals sign and a value. -/
def keyValue (key value : List Char) : List Char := key ++ '=' :: value

/-- The four fields of a motor's line. -/
def FallbackMotorPlan.spec (plan : FallbackMotorPlan) : List Char :=
  showInt64 plan.targetUsteps ++ ',' :: (formatG plan.holdS ++ ',' :: (formatG plan.speedHz ++
    ',' :: plan.state.toText.toList))

namespace FallbackPlanner

variable {n : ℕ}

/-- The line of a motor, when it has a plan. -/
def motorLine (p : FallbackPlanner n) (i : Fin n) : Option (List Char) :=
  if (p.motors i).configured then some (keyValue ('m' :: showNat i) (p.motors i).spec) else none

/-- The lines about the whole plan. -/
def headLines (p : FallbackPlanner n) : List (List Char) :=
  [keyValue "armed".toList [if p.armed then '1' else '0'],
    keyValue "state".toList p.state.toText.toList,
    keyValue "deadline_s".toList (formatG p.cfg.bendDeadlineS)]

/-- The plan file's text. -/
def serialize (p : FallbackPlanner n) : List Char :=
  putlines '\n' (p.headLines ++ (List.finRange n).filterMap p.motorLine)

/-- What has been read of a plan file: the state, once its line was seen, and the motors. -/
structure Reading (n : ℕ) where
  state : Option FallbackPlanState := none
  motors : Fin n → FallbackMotorPlan := fun _ => {}

/-- The bend in the four fields of a motor's line. -/
def readSpec (value : List Char) : Option FallbackMotorPlan :=
  match getlines ',' value with
  | [target, hold, speed, name] => do
    let targetUsteps ← wholeInt64 target
    let holdS ← wholeDouble hold
    let speedHz ← wholeDouble speed
    let state ← parseFallbackMotorState name
    if state = .unconfigured then none else some ⟨true, targetUsteps, holdS, speedHz, state⟩
  | _ => none

/-- Read one line. `armed` and `deadline_s` are informational and unknown keys are ignored. -/
def readLine (reading : Reading n) (raw : List Char) : Option (Reading n) :=
  let line := trim isBlank raw
  if line = [] ∨ line.head? = some '#' then some reading
  else match cut '=' line with
    | none => none
    | some (key, value) =>
      if key = "state".toList then
        (parseFallbackPlanState value).map fun state => { reading with state := some state }
      else if 2 ≤ key.length ∧ key.head? = some 'm' then do
        let motorId ← wholeInt64 key.tail
        let i ← @index n motorId.toInt
        let plan ← readSpec value
        some { reading with motors := Function.update reading.motors i plan }
      else some reading

/-- Read a plan file's text. The flag says whether it held a plan; where it did not, the planner is
left with none. -/
def deserialize (p : FallbackPlanner n) (text : List Char) : FallbackPlanner n × Bool :=
  let cleared := p.clearMotors.resetToNone
  match (getlines '\n' text).foldlM readLine {} with
  | none => (cleared, false)
  | some reading =>
    match reading.state with
    | none => (cleared, false)
    | some state =>
      if state ≠ .none ∧ ((List.finRange n).any fun i => (reading.motors i).configured) = false then
        (cleared, false)
      else ({ cleared with motors := reading.motors, state := state }, true)

/-- The printed number is read back as some number. -/
def readable (x : ℚ) : Bool := (wholeDouble (formatG x)).isSome

/-- A number after it was printed and read. -/
def reread (x : ℚ) : ℚ := (wholeDouble (formatG x)).getD 0

/-- A motor's plan after it was written and read. -/
def rereadPlan (plan : FallbackMotorPlan) : FallbackMotorPlan :=
  if plan.configured then { plan with holdS := reread plan.holdS, speedHz := reread plan.speedHz }
  else {}

/-- A motor without a plan needs no numbers; those of a plan are read back. -/
def readablePlan (plan : FallbackMotorPlan) : Bool :=
  !plan.configured || (readable plan.holdS && readable plan.speedHz)

/-- A configured motor has a state and a plan under way has a motor. -/
structure WellFormed (p : FallbackPlanner n) : Prop where
  motor_state : ∀ i, (p.motors i).configured = true ↔ (p.motors i).state ≠ .unconfigured
  some_motor : p.state ≠ .none → p.anyConfigured = true

/-- Characters of numbers are neither blanks nor separators. -/
theorem isNumeral_plain {c : Char} (h : isNumeral c) :
    isBlank c = false ∧ c ≠ ',' ∧ c ≠ '=' ∧ c ≠ '#' := by
  refine ⟨?_, ?_, ?_, ?_⟩
  · simp only [isBlank, decide_eq_false_iff_not, List.mem_cons, List.not_mem_nil, or_false]
    rintro (rfl | rfl | rfl | rfl) <;> exact absurd h (by decide)
  · rintro rfl
    exact absurd h (by decide)
  · rintro rfl
    exact absurd h (by decide)
  · rintro rfl
    exact absurd h (by decide)

/-- A printed integer has numeral characters only. -/
theorem showInt64_numeral {value : Int64} {c : Char} (h : c ∈ showInt64 value) : isNumeral c := by
  rcases showInt_chars h with hdigit | rfl
  · simp [isNumeral, hdigit]
  · decide

/-- A motor's four fields are cut apart again. -/
theorem getlines_spec (plan : FallbackMotorPlan) :
    getlines ',' plan.spec =
      [showInt64 plan.targetUsteps, formatG plan.holdS, formatG plan.speedHz,
        plan.state.toText.toList] := by
  have hnumber : ∀ text : List Char, (∀ c ∈ text, isNumeral c) → ',' ∉ text := by
    intro text htext hmem
    exact (isNumeral_plain (htext ',' hmem)).2.1 rfl
  have hname : ',' ∉ plan.state.toText.toList ∧ plan.state.toText.toList ≠ [] := by
    cases plan.state <;> decide
  rw [FallbackMotorPlan.spec, getlines_append (hnumber _ fun _ => showInt64_numeral),
    getlines_append (hnumber _ fun _ => formatG_numeral),
    getlines_append (hnumber _ fun _ => formatG_numeral), getlines_last hname.1 hname.2]

/-- No character of a motor's fields is blank. -/
theorem spec_plain (plan : FallbackMotorPlan) : ∀ c ∈ plan.spec, isBlank c = false := by
  have hname : ∀ c ∈ plan.state.toText.toList, isBlank c = false := by
    cases plan.state <;> exact forall_mem_of_all (by decide)
  intro c hc
  rcases List.mem_append.mp hc with hmem | hmem
  · exact (isNumeral_plain (showInt64_numeral hmem)).1
  rcases List.mem_cons.mp hmem with rfl | hmem
  · decide
  rcases List.mem_append.mp hmem with hmem | hmem
  · exact (isNumeral_plain (formatG_numeral hmem)).1
  rcases List.mem_cons.mp hmem with rfl | hmem
  · decide
  rcases List.mem_append.mp hmem with hmem | hmem
  · exact (isNumeral_plain (formatG_numeral hmem)).1
  rcases List.mem_cons.mp hmem with rfl | hmem
  · decide
  · exact hname c hmem

/-- A configured motor's fields are read back, when its durations are. -/
theorem readSpec_spec {plan : FallbackMotorPlan} (hconfigured : plan.configured = true)
    (hstate : plan.state ≠ .unconfigured) :
    readSpec plan.spec =
      if readablePlan plan then some (rereadPlan plan) else none := by
  unfold readSpec readablePlan readable
  rw [getlines_spec]
  simp only [wholeInt64_showInt64, parseFallbackMotorState_toText, Option.bind_eq_bind,
    Option.bind_some, if_neg hstate]
  cases hhold : wholeDouble (formatG plan.holdS) with
  | none => simp [hconfigured]
  | some hold =>
    cases hspeed : wholeDouble (formatG plan.speedHz) with
    | none => simp [hconfigured]
    | some speed => simp [rereadPlan, reread, hconfigured, hhold, hspeed]

/-- A line with a plain key and value is read by its key. -/
theorem readLine_keyValue (reading : Reading n) {key value : List Char}
    (hkey : ∀ c ∈ key, isBlank c = false ∧ c ≠ '=' ∧ c ≠ '#') (hne : key ≠ [])
    (hvalue : ∀ c ∈ value, isBlank c = false) :
    readLine reading (keyValue key value) =
      if key = "state".toList then
        (parseFallbackPlanState value).map fun state => { reading with state := some state }
      else if 2 ≤ key.length ∧ key.head? = some 'm' then
        (wholeInt64 key.tail).bind fun motorId => (@index n motorId.toInt).bind fun i =>
          (readSpec value).bind fun plan =>
            some { reading with motors := Function.update reading.motors i plan }
      else some reading := by
  have hplain : ∀ c ∈ keyValue key value, isBlank c = false := by
    intro c hc
    rcases List.mem_append.mp hc with hmem | hmem
    · exact (hkey c hmem).1
    rcases List.mem_cons.mp hmem with rfl | hmem
    · decide
    · exact hvalue c hmem
  have hnokey : '=' ∉ key := fun hmem => (hkey '=' hmem).2.1 rfl
  have hskip : ¬ (keyValue key value = [] ∨ (keyValue key value).head? = some '#') := by
    cases key with
    | nil => exact absurd rfl hne
    | cons c key => simp [keyValue, (hkey c List.mem_cons_self).2.2]
  unfold readLine
  rw [trim_eq_self hplain]
  simp only [if_neg hskip]
  rw [keyValue, cut_append hnokey]
  simp only [Option.bind_eq_bind]

/-- A motor's id in its key is read back. -/
theorem wholeInt64_showNat (i : Fin n) (haddressable : n ≤ 2 ^ 63) :
    ((wholeInt64 (showNat i)).bind fun motorId => @index n motorId.toInt) = some i := by
  have hbound : (i.val : ℤ) < 2 ^ 63 := by
    have hlt := i.isLt
    omega
  have hshow : showNat i.val = showInt (i.val : ℤ) := by
    rw [showInt, if_neg (by omega), Int.natAbs_natCast]
  rw [hshow, wholeInt64, wholeInt_showInt, Option.bind_some, if_pos ⟨by omega, hbound⟩,
    Option.bind_some, Int64.toInt_ofInt_of_le (by omega) hbound, index_coe]

/-- The line of a configured motor is read back, when its durations are. -/
theorem readLine_motorLine {p : FallbackPlanner n} {i : Fin n} (reading : Reading n)
    (hconfigured : (p.motors i).configured = true) (hstate : (p.motors i).state ≠ .unconfigured) :
    readLine reading (keyValue ('m' :: showNat i) (p.motors i).spec) =
      if readablePlan (p.motors i) then
        some { reading with motors := Function.update reading.motors i (rereadPlan (p.motors i)) }
      else none := by
  have hkey : ∀ c ∈ 'm' :: showNat i.val, isBlank c = false ∧ c ≠ '=' ∧ c ≠ '#' := by
    intro c hc
    rcases List.mem_cons.mp hc with rfl | hmem
    · decide
    · obtain ⟨hblank, -, hplain⟩ := isNumeral_plain (showNat_numeral hmem)
      exact ⟨hblank, hplain⟩
  have hother : ¬ ('m' :: showNat i.val = "state".toList) := by
    simp
  have hlength : 2 ≤ ('m' :: showNat i.val).length ∧ ('m' :: showNat i.val).head? = some 'm' := by
    have hpos : 0 < (showNat i.val).length := List.length_pos_iff.mpr (showNat_ne_nil _)
    refine ⟨?_, rfl⟩
    rw [List.length_cons]
    omega
  rw [readLine_keyValue reading hkey (List.cons_ne_nil _ _) (spec_plain _), if_neg hother,
    if_pos hlength, readSpec_spec hconfigured hstate, List.tail_cons]
  have hid := wholeInt64_showNat i p.addressable
  cases hread : wholeInt64 (showNat i.val) with
  | none => simp [hread] at hid
  | some motorId =>
    rw [hread, Option.bind_some] at hid
    rw [Option.bind_some, hid, Option.bind_some]
    split <;> rfl

/-- What reading the lines of a list of motors makes of a reading. -/
theorem foldlM_motorLines {p : FallbackPlanner n} (hp : p.WellFormed) {l : List (Fin n)}
    (hnodup : l.Nodup) (reading : Reading n) :
    (l.filterMap p.motorLine).foldlM readLine reading =
      if l.all fun i => readablePlan (p.motors i) then
        some { reading with
          motors := fun i => if i ∈ l ∧ (p.motors i).configured then rereadPlan (p.motors i)
            else reading.motors i }
      else none := by
  induction l generalizing reading with
  | nil => simp
  | cons i l ih =>
    obtain ⟨hnotin, hnodup⟩ := List.nodup_cons.mp hnodup
    by_cases hconfigured : (p.motors i).configured = true
    · have hline : p.motorLine i = some (keyValue ('m' :: showNat i) (p.motors i).spec) :=
        if_pos hconfigured
      have hstate := (hp.motor_state i).mp hconfigured
      rw [List.filterMap_cons_some hline, List.foldlM_cons, readLine_motorLine _ hconfigured hstate]
      by_cases hread : readablePlan (p.motors i) = true
      · rw [if_pos hread, List.all_cons, hread, Bool.true_and, Option.bind_eq_bind,
          Option.bind_some, ih hnodup]
        congr 3
        funext j
        by_cases hj : j = i
        · subst hj
          simp [hnotin, hconfigured]
        · simp [hj]
      · rw [if_neg hread, List.all_cons, Bool.eq_false_iff.mpr hread, Bool.false_and]
        rfl
    · have hline : p.motorLine i = none := if_neg hconfigured
      have hread : readablePlan (p.motors i) = true := by
        simp [readablePlan, hconfigured]
      rw [List.filterMap_cons_none hline, ih hnodup, List.all_cons, hread, Bool.true_and]
      congr 3
      funext j
      by_cases hj : j = i
      · subst hj
        simp [hconfigured]
      · simp [hj]

/-- The lines about the whole plan give its state. -/
theorem foldlM_headLines (p : FallbackPlanner n) :
    p.headLines.foldlM readLine ({} : Reading n) = some { state := some p.state } := by
  have hnumber : ∀ c ∈ formatG p.cfg.bendDeadlineS, isBlank c = false :=
    fun c hc => (isNumeral_plain (formatG_numeral hc)).1
  have hname : ∀ c ∈ p.state.toText.toList, isBlank c = false := by
    cases p.state <;> exact forall_mem_of_all (by decide)
  have harmed : ∀ reading : Reading n,
      readLine reading (keyValue "armed".toList [if p.armed then '1' else '0']) = some reading := by
    intro reading
    have hvalue : ∀ c ∈ [if p.armed then '1' else '0'], isBlank c = false := by
      cases p.armed <;> exact forall_mem_of_all (by decide)
    rw [readLine_keyValue reading (forall_mem_of_all (by decide)) (by decide) hvalue,
      if_neg (by decide), if_neg (by decide)]
  have hstate : ∀ reading : Reading n, readLine reading
      (keyValue "state".toList p.state.toText.toList) =
        some { reading with state := some p.state } := by
    intro reading
    rw [readLine_keyValue reading (forall_mem_of_all (by decide)) (by decide) hname, if_pos rfl,
      parseFallbackPlanState_toText, Option.map_some]
  have hdeadline : ∀ reading : Reading n, readLine reading
      (keyValue "deadline_s".toList (formatG p.cfg.bendDeadlineS)) = some reading := by
    intro reading
    rw [readLine_keyValue reading (forall_mem_of_all (by decide)) (by decide) hnumber,
      if_neg (by decide), if_neg (by decide)]
  rw [headLines, List.foldlM_cons, harmed, Option.bind_eq_bind, Option.bind_some, List.foldlM_cons,
    hstate, Option.bind_eq_bind, Option.bind_some, List.foldlM_cons, hdeadline,
    Option.bind_eq_bind, Option.bind_some, List.foldlM_nil]
  rfl

/-- The lines of the plan file hold no line feed. -/
theorem serialize_lines (p : FallbackPlanner n) :
    getlines '\n' p.serialize = p.headLines ++ (List.finRange n).filterMap p.motorLine := by
  refine getlines_putlines fun line hline => ?_
  have hplain : ∀ key value : List Char, (∀ c ∈ key, isBlank c = false) →
      (∀ c ∈ value, isBlank c = false) → '\n' ∉ keyValue key value := by
    intro key value hkey hvalue hmem
    rcases List.mem_append.mp hmem with hmem | hmem
    · exact absurd (hkey '\n' hmem) (by decide)
    rcases List.mem_cons.mp hmem with heq | hmem
    · exact absurd heq (by decide)
    · exact absurd (hvalue '\n' hmem) (by decide)
  rcases List.mem_append.mp hline with hhead | hmotor
  · simp only [headLines, List.mem_cons, List.not_mem_nil, or_false] at hhead
    rcases hhead with rfl | rfl | rfl
    · refine hplain _ _ (forall_mem_of_all (by decide)) ?_
      cases p.armed <;> exact forall_mem_of_all (by decide)
    · refine hplain _ _ (forall_mem_of_all (by decide)) ?_
      cases p.state <;> exact forall_mem_of_all (by decide)
    · exact hplain _ _ (forall_mem_of_all (by decide)) fun c hc =>
        (isNumeral_plain (formatG_numeral hc)).1
  · obtain ⟨i, -, hi⟩ := List.mem_filterMap.mp hmotor
    unfold motorLine at hi
    split at hi
    · rw [← Option.some.inj hi]
      refine hplain _ _ (fun c hc => ?_) (spec_plain _)
      rcases List.mem_cons.mp hc with rfl | hmem
      · decide
      · exact (isNumeral_plain (showNat_numeral hmem)).1
    · cases hi

/-- A well-formed plan is read back from its own file when its numbers are, and leaves no plan
otherwise. -/
theorem deserialize_serialize {p : FallbackPlanner n} (hp : p.WellFormed)
    (q : FallbackPlanner n) :
    q.deserialize p.serialize =
      if (List.finRange n).all fun i => readablePlan (p.motors i) then
        ({ q.clearMotors.resetToNone with
          motors := fun i => rereadPlan (p.motors i), state := p.state }, true)
      else (q.clearMotors.resetToNone, false) := by
  have hmotors : (fun i => if i ∈ List.finRange n ∧ (p.motors i).configured = true then
      rereadPlan (p.motors i) else ({} : FallbackMotorPlan)) = fun i => rereadPlan (p.motors i) := by
    funext i
    by_cases hconfigured : (p.motors i).configured = true
    · simp [hconfigured]
    · simp [rereadPlan, hconfigured]
  have hfold : (getlines '\n' p.serialize).foldlM readLine ({} : Reading n) =
      if (List.finRange n).all fun i => readablePlan (p.motors i) then
        some ⟨some p.state, fun i => rereadPlan (p.motors i)⟩ else none := by
    rw [serialize_lines, List.foldlM_append, foldlM_headLines, Option.bind_eq_bind,
      Option.bind_some, foldlM_motorLines hp (List.nodup_finRange n), hmotors]
  have hconfigured : ∀ i, (rereadPlan (p.motors i)).configured = (p.motors i).configured := by
    intro i
    unfold rereadPlan
    split
    · rfl
    · rename_i hno
      exact (Bool.eq_false_iff.mpr hno).symm
  have hsome : ¬ (p.state ≠ .none ∧
      ((List.finRange n).any fun i => (rereadPlan (p.motors i)).configured) = false) := by
    rintro ⟨hstate, hno⟩
    simp only [hconfigured] at hno
    exact absurd (hp.some_motor hstate) (by simp [anyConfigured, hno])
  unfold deserialize
  rw [hfold]
  by_cases hread : ((List.finRange n).all fun i => readablePlan (p.motors i)) = true
  · simp only [if_pos hread]
    exact if_neg hsome
  · simp only [if_neg hread]

end FallbackPlanner

end Coatheal.Fallback
