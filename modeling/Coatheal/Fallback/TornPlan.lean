import Coatheal.Fallback.PlanRoundTrip

/-!
# A plan file that breaks off

The file is rewritten in place, so a power cut leaves a prefix of it. A break
inside a line is noticed, and no number is ever read short. A break between the
lines of two motors is not: the motors after it are lost, and what is left of an
armed plan is armed.
-/

namespace Coatheal.Fallback

open Coatheal.Library Coatheal.Library.Text

variable {n : ℕ}

namespace FallbackPlanner

/-- A prefix of the plan's file is rejected, or gives the plan back. -/
def TornSafe (p : FallbackPlanner n) (count : ℕ) : Prop :=
  let after := (FallbackPlanner.new p.cfg p.addressable : FallbackPlanner n).deserialize (p.serialize.take count)
  after.2 = false ∨ after.1.state = p.state ∧ after.1.motors = p.motors

/-- The motors the file has a line for, in its order. -/
def loaded (p : FallbackPlanner n) : List (Fin n) := (List.finRange n).filter fun i => (p.motors i).configured

/-- The line of a motor that has a plan. -/
def line (p : FallbackPlanner n) (i : Fin n) : List Char := keyValue ('m' :: showNat i) (p.motors i).spec

/-- The length of the text up to the end of the state, and of all lines about the whole plan. -/
def stateEnd (p : FallbackPlanner n) : ℕ :=
  (keyValue "armed".toList [if p.armed then '1' else '0']).length + 1 +
    (keyValue "state".toList p.state.toText.toList).length

/-- The length of the lines about the whole plan. -/
def headEnd (p : FallbackPlanner n) : ℕ :=
  p.stateEnd + 1 + (keyValue "deadline_s".toList (formatG p.cfg.bendDeadlineS)).length + 1

/-- How many lines a text shows that breaks off after some characters. It shows none when it breaks off
inside a line; the line feed of the last one may be missing. -/
def wholeLines : List (List Char) → ℕ → Option ℕ
  | [], _ => some 0
  | line :: rest, count =>
    if count = 0 then some 0
    else if count < line.length then none
    else (wholeLines rest (count - line.length - 1)).map (· + 1)

/-- How many motors' lines a prefix of the file shows, if it shows the state and does not break off
inside a line. Within the value of the deadline, which is not read, it may break off. -/
def shownMotors (p : FallbackPlanner n) (count : ℕ) : Option ℕ :=
  if count < p.headEnd then
    if count < p.stateEnd then none
    else if p.stateEnd + 1 < count ∧ count ≤ p.stateEnd + 1 + "deadline_s".toList.length then none
    else some 0
  else wholeLines (p.loaded.map p.line) (count - p.headEnd)

/-- A prefix shows some first motors, enough for the state it shows, with numbers that can be read. -/
structure Shows (p : FallbackPlanner n) (count shown : ℕ) : Prop where
  lines : p.shownMotors count = some shown
  enough : p.state ≠ .none → shown ≠ 0
  readable : ∀ i ∈ p.loaded.take shown, readablePlan (p.motors i) = true

/-- A state's name that breaks off is no name of a state. -/
theorem parseFallbackPlanState_take (state : FallbackPlanState) {count : ℕ}
    (h : count < state.toText.toList.length) :
    parseFallbackPlanState (state.toText.toList.take count) = none := by
  have hall : ∀ count < state.toText.toList.length,
      parseFallbackPlanState (state.toText.toList.take count) = none := by
    cases state <;> decide
  exact hall count h

/-- A motor state's name that breaks off is no name of one. -/
theorem parseFallbackMotorState_take (state : FallbackMotorState) {count : ℕ}
    (h : count < state.toText.toList.length) :
    parseFallbackMotorState (state.toText.toList.take count) = none := by
  have hall : ∀ count < state.toText.toList.length,
      parseFallbackMotorState (state.toText.toList.take count) = none := by
    cases state <;> decide
  exact hall count h

/-- Fewer than four fields are not read. -/
theorem readSpec_few {value : List Char} (h : (getlines ',' value).length < 4) : readSpec value = none := by
  unfold readSpec
  split
  · rename_i heq
    rw [heq] at h
    exact absurd h (lt_irrefl 4)
  · rfl

/-- The fields of a motor that break off are not read. -/
theorem readSpec_take (plan : FallbackMotorPlan) {count : ℕ} (h : count < plan.spec.length) :
    readSpec (plan.spec.take count) = none := by
  have hnumber : ∀ text : List Char, (∀ c ∈ text, isNumeral c) → ',' ∉ text := by
    intro text htext hmem
    exact (isNumeral_plain (htext ',' hmem)).2.1 rfl
  have hname : ',' ∉ plan.state.toText.toList := by
    cases plan.state <;> decide
  have hone : ∀ text : List Char, (if text = [] then [] else [text]).length ≤ 1 := by
    intro text
    split <;> simp
  have hlength : plan.spec.length = (showInt64 plan.targetUsteps).length + 1 +
      ((formatG plan.holdS).length + 1 + ((formatG plan.speedHz).length + 1 +
        plan.state.toText.toList.length)) := by
    simp only [FallbackMotorPlan.spec, List.length_append, List.length_cons]
    omega
  rw [hlength] at h
  have hfirst := getlines_take_append (hnumber (showInt64 plan.targetUsteps) fun _ => showInt64_numeral)
    (formatG plan.holdS ++ ',' :: (formatG plan.speedHz ++ ',' :: plan.state.toText.toList)) count
  have hsecond := fun count => getlines_take_append (hnumber (formatG plan.holdS) fun _ => formatG_numeral)
    (formatG plan.speedHz ++ ',' :: plan.state.toText.toList) count
  have hthird := fun count => getlines_take_append (hnumber (formatG plan.speedHz) fun _ => formatG_numeral)
    plan.state.toText.toList count
  by_cases h1 : count ≤ (showInt64 plan.targetUsteps).length
  · rw [if_pos h1] at hfirst
    refine readSpec_few ?_
    have := hone ((showInt64 plan.targetUsteps).take count)
    rw [FallbackMotorPlan.spec, hfirst]
    omega
  rw [if_neg h1, hsecond] at hfirst
  by_cases h2 : count - (showInt64 plan.targetUsteps).length - 1 ≤ (formatG plan.holdS).length
  · rw [if_pos h2] at hfirst
    refine readSpec_few ?_
    have := hone ((formatG plan.holdS).take (count - (showInt64 plan.targetUsteps).length - 1))
    rw [FallbackMotorPlan.spec, hfirst, List.length_cons]
    omega
  rw [if_neg h2, hthird] at hfirst
  by_cases h3 : count - (showInt64 plan.targetUsteps).length - 1 - (formatG plan.holdS).length - 1 ≤
      (formatG plan.speedHz).length
  · rw [if_pos h3] at hfirst
    refine readSpec_few ?_
    have := hone ((formatG plan.speedHz).take
      (count - (showInt64 plan.targetUsteps).length - 1 - (formatG plan.holdS).length - 1))
    rw [FallbackMotorPlan.spec, hfirst, List.length_cons, List.length_cons]
    omega
  rw [if_neg h3] at hfirst
  generalize hrest : count - (showInt64 plan.targetUsteps).length - 1 - (formatG plan.holdS).length - 1 -
    (formatG plan.speedHz).length - 1 = rest at hfirst
  have hshort : rest < plan.state.toText.toList.length := by omega
  by_cases hempty : plan.state.toText.toList.take rest = []
  · refine readSpec_few ?_
    rw [FallbackMotorPlan.spec, hfirst, hempty]
    simp [getlines]
  · -- Four fields, of which the last is no name of a state.
    rw [getlines_last (fun hmem => hname (List.mem_of_mem_take hmem)) hempty] at hfirst
    unfold readSpec
    rw [FallbackMotorPlan.spec, hfirst]
    simp only [parseFallbackMotorState_take plan.state hshort, Option.bind_eq_bind, Option.bind_none,
      Option.bind_fun_none]

/-- The key of a motor's line has a letter and digits. -/
theorem motorKey_plain (i : Fin n) : ∀ c ∈ 'm' :: showNat i.val, isBlank c = false ∧ c ≠ '=' ∧ c ≠ '#' := by
  intro c hc
  rcases List.mem_cons.mp hc with rfl | hmem
  · decide
  · obtain ⟨hblank, -, hplain⟩ := isNumeral_plain (showNat_numeral hmem)
    exact ⟨hblank, hplain⟩

/-- No character of a motor's line is blank. -/
theorem line_plain (p : FallbackPlanner n) (i : Fin n) : ∀ c ∈ p.line i, isBlank c = false := by
  intro c hc
  rcases List.mem_append.mp hc with hmem | hmem
  · exact (motorKey_plain i c hmem).1
  rcases List.mem_cons.mp hmem with rfl | hmem
  · decide
  · exact spec_plain _ c hmem

/-- A key and a value that break off, without blanks, are cut apart if the key is complete. -/
theorem readLine_take (reading : Reading n) {key value : List Char} {count : ℕ}
    (hkey : ∀ c ∈ key, isBlank c = false ∧ c ≠ '=' ∧ c ≠ '#') (hne : key ≠ [])
    (hvalue : ∀ c ∈ value, isBlank c = false) (hpos : 0 < count) :
    readLine reading ((keyValue key value).take count) =
      if count ≤ key.length then none
      else readLine reading (keyValue key (value.take (count - key.length - 1))) := by
  have hplain : ∀ c ∈ (keyValue key value).take count, isBlank c = false := by
    intro c hc
    rcases List.mem_append.mp (List.mem_of_mem_take hc) with hmem | hmem
    · exact (hkey c hmem).1
    rcases List.mem_cons.mp hmem with rfl | hmem
    · decide
    · exact hvalue c hmem
  have hnokey : '=' ∉ key := fun hmem => (hkey '=' hmem).2.1 rfl
  by_cases hshort : count ≤ key.length
  · have hskip : ¬ ((keyValue key value).take count = [] ∨ ((keyValue key value).take count).head? = some '#') := by
      cases key with
      | nil => exact absurd rfl hne
      | cons c key =>
        obtain ⟨count, rfl⟩ : ∃ k, count = k + 1 := ⟨count - 1, by omega⟩
        simp [keyValue, (hkey c List.mem_cons_self).2.2]
    unfold readLine
    rw [trim_eq_self hplain]
    simp only [if_neg hskip]
    rw [keyValue, cut_take hnokey, if_pos hshort, if_pos hshort]
  · rw [if_neg hshort, keyValue, List.take_append, List.take_of_length_le (by omega : key.length ≤ count)]
    obtain ⟨rest, hrest⟩ : ∃ rest, count - key.length = rest + 1 := ⟨count - key.length - 1, by omega⟩
    rw [hrest, List.take_succ_cons, Nat.add_sub_cancel]
    rfl

/-- A motor's line that breaks off is not read. -/
theorem readLine_line_take {p : FallbackPlanner n} (i : Fin n) (reading : Reading n) {count : ℕ}
    (hpos : 0 < count) (h : count < (p.line i).length) :
    readLine reading ((p.line i).take count) = none := by
  have hlength : (p.line i).length = ('m' :: showNat i.val).length + 1 + (p.motors i).spec.length := by
    simp only [line, keyValue, List.length_append, List.length_cons]
    omega
  have hother : ¬ ('m' :: showNat i.val = "state".toList) := by
    simp
  rw [line, readLine_take reading (motorKey_plain i) (List.cons_ne_nil _ _) (spec_plain _) hpos]
  split
  · rfl
  · rename_i hlong
    rw [readLine_keyValue reading (motorKey_plain i) (List.cons_ne_nil _ _)
        (fun c hc => spec_plain _ c (List.mem_of_mem_take hc)), if_neg hother,
      readSpec_take _ (by omega)]
    have hpositive : 0 < (showNat i.val).length := List.length_pos_iff.mpr (showNat_ne_nil _)
    rw [if_pos ⟨by rw [List.length_cons]; omega, rfl⟩]
    cases wholeInt64 ('m' :: showNat i.val).tail with
    | none => rfl
    | some motorId =>
      rw [Option.bind_some]
      cases (index motorId.toInt : Option (Fin n)) with
      | none => rfl
      | some j => rfl

/-- No line of the file has a line feed in it. -/
theorem line_noFeed (p : FallbackPlanner n) (i : Fin n) : '\n' ∉ p.line i :=
  fun hmem => absurd (line_plain p i '\n' hmem) (by decide)

/-- What is read from lines of motors that break off: the motors of the lines that are shown, unless the
break is inside a line or a number cannot be read. -/
theorem read_lines_take {p : FallbackPlanner n} (hp : p.WellFormed) {l : List (Fin n)} (hnodup : l.Nodup)
    (hloaded : ∀ i ∈ l, (p.motors i).configured = true) (reading : Reading n) (count : ℕ) :
    (getlines '\n' ((putlines '\n' (l.map p.line)).take count)).foldlM readLine reading =
      (wholeLines (l.map p.line) count).bind fun shown =>
        if (l.take shown).all fun i => readablePlan (p.motors i) then
          some { reading with
            motors := fun i => if i ∈ l.take shown then rereadPlan (p.motors i) else reading.motors i }
        else none := by
  induction l generalizing reading count with
  | nil => simp [putlines, getlines, wholeLines]
  | cons i l ih =>
    obtain ⟨hnotin, hnodup⟩ := List.nodup_cons.mp hnodup
    have hconfigured := hloaded i List.mem_cons_self
    have hstate := (hp.motor_state i).mp hconfigured
    have htext : putlines '\n' ((i :: l).map p.line) = p.line i ++ '\n' :: putlines '\n' (l.map p.line) := by
      simp [putlines]
    have hwhole : readLine reading (p.line i) =
        if readablePlan (p.motors i) then
          some { reading with motors := Function.update reading.motors i (rereadPlan (p.motors i)) }
        else none := readLine_motorLine reading hconfigured hstate
    have hlater := fun reading => ih hnodup (fun j hj => hloaded j (List.mem_cons_of_mem _ hj)) reading
      (count - (p.line i).length - 1)
    rw [htext, getlines_take_append (line_noFeed p i), List.map_cons, wholeLines]
    by_cases hzero : count = 0
    · subst hzero
      simp
    rw [if_neg hzero]
    have hne : p.line i ≠ [] := by simp [line, keyValue]
    by_cases hshort : count < (p.line i).length
    · have hnotnil : (p.line i).take count ≠ [] := by
        rw [ne_eq, List.take_eq_nil_iff]
        exact fun h => h.elim hzero hne
      rw [if_pos hshort, if_pos hshort.le, if_neg hnotnil, List.foldlM_cons,
        readLine_line_take i reading (Nat.pos_of_ne_zero hzero) hshort]
      rfl
    rw [if_neg hshort]
    -- The line is whole; its line feed may be missing.
    have hsplit : (if count ≤ (p.line i).length then
        if (p.line i).take count = [] then [] else [(p.line i).take count]
        else p.line i :: getlines '\n' ((putlines '\n' (l.map p.line)).take (count - (p.line i).length - 1))) =
          p.line i :: getlines '\n' ((putlines '\n' (l.map p.line)).take (count - (p.line i).length - 1)) := by
      split
      · have hexact : count = (p.line i).length := by omega
        rw [hexact, List.take_length, if_neg hne]
        simp [getlines]
      · rfl
    rw [hsplit, List.foldlM_cons, hwhole]
    by_cases hread : readablePlan (p.motors i) = true
    · rw [if_pos hread, Option.bind_eq_bind, Option.bind_some, hlater]
      cases wholeLines (l.map p.line) (count - (p.line i).length - 1) with
      | none => rfl
      | some shown =>
        rw [Option.map_some, Option.bind_some, Option.bind_some, List.take_succ_cons, List.all_cons, hread,
          Bool.true_and]
        congr 3
        funext j
        by_cases hj : j = i
        · subst hj
          have hout : j ∉ l.take shown := fun hmem => hnotin (List.mem_of_mem_take hmem)
          simp [hout]
        · simp [hj]
    · rw [if_neg hread]
      cases wholeLines (l.map p.line) (count - (p.line i).length - 1) with
      | none => rfl
      | some shown =>
        rw [Option.map_some, Option.bind_some, List.take_succ_cons, List.all_cons,
          Bool.eq_false_iff.mpr hread, Bool.false_and]
        rfl

/-- No more lines are shown than there are. -/
theorem wholeLines_le {lines : List (List Char)} {count shown : ℕ} (h : wholeLines lines count = some shown) :
    shown ≤ lines.length := by
  induction lines generalizing count shown with
  | nil =>
    cases h
    exact le_rfl
  | cons line lines ih =>
    unfold wholeLines at h
    split at h
    · cases h
      exact Nat.zero_le _
    · split at h
      · cases h
      · obtain ⟨less, hless, rfl⟩ := Option.map_eq_some_iff.mp h
        exact Nat.succ_le_succ (ih hless)

/-- The text of the file, line by line. -/
theorem serialize_eq (p : FallbackPlanner n) :
    p.serialize = keyValue "armed".toList [if p.armed then '1' else '0'] ++ '\n' ::
      (keyValue "state".toList p.state.toText.toList ++ '\n' ::
        (keyValue "deadline_s".toList (formatG p.cfg.bendDeadlineS) ++ '\n' ::
          putlines '\n' (p.loaded.map p.line))) := by
  have hlines : ∀ l : List (Fin n), l.filterMap p.motorLine =
      (l.filter fun i => (p.motors i).configured).map p.line := by
    intro l
    induction l with
    | nil => rfl
    | cons i l ih =>
      by_cases hi : (p.motors i).configured = true
      · have hline : p.motorLine i = some (p.line i) := if_pos hi
        rw [List.filterMap_cons_some hline, ih]
        simp [hi]
      · have hline : p.motorLine i = none := if_neg hi
        rw [List.filterMap_cons_none hline, ih]
        simp [hi]
  rw [serialize, hlines, headLines, loaded]
  simp [putlines]

/-- The value of a line about the whole plan has no blank in it. -/
theorem head_plain (p : FallbackPlanner n) :
    (∀ c ∈ [if p.armed then '1' else '0'], isBlank c = false) ∧
      (∀ c ∈ p.state.toText.toList, isBlank c = false) ∧
      ∀ c ∈ formatG p.cfg.bendDeadlineS, isBlank c = false := by
  refine ⟨?_, ?_, fun c hc => (isNumeral_plain (formatG_numeral hc)).1⟩
  · cases p.armed <;> exact forall_mem_of_all (by decide)
  · cases p.state <;> exact forall_mem_of_all (by decide)

/-- A line without blanks has no line feed. -/
theorem keyValue_noFeed {key value : List Char} (hkey : ∀ c ∈ key, isBlank c = false)
    (hvalue : ∀ c ∈ value, isBlank c = false) : '\n' ∉ keyValue key value := by
  intro hmem
  rcases List.mem_append.mp hmem with hmem | hmem
  · exact absurd (hkey '\n' hmem) (by decide)
  rcases List.mem_cons.mp hmem with heq | hmem
  · exact absurd heq (by decide)
  · exact absurd (hvalue '\n' hmem) (by decide)

/-- A line that is only informational is passed over, also when it breaks off behind its key. -/
theorem readLine_informational (reading : Reading n) {key value : List Char}
    (hkey : ∀ c ∈ key, isBlank c = false ∧ c ≠ '=' ∧ c ≠ '#') (hne : key ≠ [])
    (hother : key ≠ "state".toList ∧ key.head? ≠ some 'm') (hvalue : ∀ c ∈ value, isBlank c = false) :
    readLine reading (keyValue key value) = some reading := by
  rw [readLine_keyValue reading hkey hne hvalue, if_neg hother.1, if_neg fun h => hother.2 h.2]

/-- A file that breaks off before the end of the state shows no state. -/
theorem read_beforeState (p : FallbackPlanner n) {count : ℕ} (h : count < p.stateEnd) {reading : Reading n}
    (hread : (getlines '\n' (p.serialize.take count)).foldlM readLine {} = some reading) :
    reading.state = none := by
  obtain ⟨harmed, hstate, -⟩ := head_plain p
  have hkey : ∀ c ∈ "armed".toList, isBlank c = false ∧ c ≠ '=' ∧ c ≠ '#' := forall_mem_of_all (by decide)
  have hkey' : ∀ c ∈ "state".toList, isBlank c = false ∧ c ≠ '=' ∧ c ≠ '#' := forall_mem_of_all (by decide)
  have hpass : ∀ (reading : Reading n) (value : List Char), (∀ c ∈ value, isBlank c = false) →
      readLine reading (keyValue "armed".toList value) = some reading :=
    fun reading value => readLine_informational reading hkey (by decide) (by decide)
  rw [stateEnd] at h
  rw [serialize_eq] at hread
  generalize [if p.armed then '1' else '0'] = flag at h hread harmed
  rw [getlines_take_append (keyValue_noFeed (fun c hc => (hkey c hc).1) harmed)] at hread
  by_cases hfirst : count ≤ (keyValue "armed".toList flag).length
  · -- The break is in the first line.
    rw [if_pos hfirst] at hread
    by_cases hnone : (keyValue "armed".toList flag).take count = []
    · rw [if_pos hnone] at hread
      rw [← Option.some.inj hread]
    · have hpos : 0 < count := Nat.pos_of_ne_zero fun h0 => hnone (by rw [h0, List.take_zero])
      rw [if_neg hnone, List.foldlM_cons, readLine_take _ hkey (by decide) harmed hpos] at hread
      by_cases hkeyOnly : count ≤ "armed".toList.length
      · rw [if_pos hkeyOnly] at hread
        cases hread
      · rw [if_neg hkeyOnly, hpass _ _ fun c hc => harmed c (List.mem_of_mem_take hc)] at hread
        rw [← Option.some.inj hread]
  · -- The break is in the line of the state.
    rw [if_neg hfirst, List.foldlM_cons, hpass _ _ harmed, Option.bind_eq_bind, Option.bind_some,
      getlines_take_append (keyValue_noFeed (fun c hc => (hkey' c hc).1) hstate)] at hread
    generalize hrest : count - (keyValue "armed".toList flag).length - 1 = rest at hread
    have hcount : rest < (keyValue "state".toList p.state.toText.toList).length := by omega
    rw [if_pos hcount.le] at hread
    by_cases hnone : (keyValue "state".toList p.state.toText.toList).take rest = []
    · rw [if_pos hnone] at hread
      rw [← Option.some.inj hread]
    · have hpos : 0 < rest := Nat.pos_of_ne_zero fun h0 => hnone (by rw [h0, List.take_zero])
      have hlength : (keyValue "state".toList p.state.toText.toList).length =
          "state".toList.length + 1 + p.state.toText.toList.length := by
        simp only [keyValue, List.length_append, List.length_cons]
        omega
      rw [if_neg hnone, List.foldlM_cons, readLine_take _ hkey' (by decide) hstate hpos] at hread
      by_cases hkeyOnly : rest ≤ "state".toList.length
      · rw [if_pos hkeyOnly] at hread
        cases hread
      · rw [if_neg hkeyOnly, readLine_keyValue _ hkey' (by decide)
            (fun c hc => hstate c (List.mem_of_mem_take hc)),
          if_pos rfl, parseFallbackPlanState_take p.state (by omega)] at hread
        cases hread

/-- A file that breaks off later shows the state and the motors of the lines that are whole. -/
theorem read_afterState {p : FallbackPlanner n} (hp : p.WellFormed) {count : ℕ} (h : p.stateEnd ≤ count) :
    (getlines '\n' (p.serialize.take count)).foldlM readLine ({} : Reading n) =
      (p.shownMotors count).bind fun shown =>
        if (p.loaded.take shown).all fun i => readablePlan (p.motors i) then
          some ⟨some p.state, fun i => if i ∈ p.loaded.take shown then rereadPlan (p.motors i) else {}⟩
        else none := by
  obtain ⟨harmed, hstate, hdeadline⟩ := head_plain p
  have hkey : ∀ c ∈ "armed".toList, isBlank c = false ∧ c ≠ '=' ∧ c ≠ '#' := forall_mem_of_all (by decide)
  have hkey' : ∀ c ∈ "state".toList, isBlank c = false ∧ c ≠ '=' ∧ c ≠ '#' := forall_mem_of_all (by decide)
  have hkey'' : ∀ c ∈ "deadline_s".toList, isBlank c = false ∧ c ≠ '=' ∧ c ≠ '#' :=
    forall_mem_of_all (by decide)
  have hreadState : ∀ reading : Reading n, readLine reading (keyValue "state".toList p.state.toText.toList) =
      some { reading with state := some p.state } := by
    intro reading
    rw [readLine_keyValue reading hkey' (by decide) hstate, if_pos rfl, parseFallbackPlanState_toText,
      Option.map_some]
  have hfirst : (keyValue "armed".toList [if p.armed then '1' else '0']).length < count := by
    rw [stateEnd] at h
    omega
  rw [serialize_eq, getlines_take_append (keyValue_noFeed (fun c hc => (hkey c hc).1) harmed),
    if_neg (by omega), List.foldlM_cons, readLine_informational _ hkey (by decide) (by decide) harmed,
    Option.bind_eq_bind, Option.bind_some,
    getlines_take_append (keyValue_noFeed (fun c hc => (hkey' c hc).1) hstate)]
  unfold shownMotors
  generalize hrest : count - (keyValue "armed".toList [if p.armed then '1' else '0']).length - 1 = rest
  have hend : p.stateEnd + rest = count + (keyValue "state".toList p.state.toText.toList).length := by
    rw [stateEnd]
    omega
  by_cases hexact : rest ≤ (keyValue "state".toList p.state.toText.toList).length
  · -- The text ends with the name of the state.
    have hwhole : rest = (keyValue "state".toList p.state.toText.toList).length := by omega
    have hne : keyValue "state".toList p.state.toText.toList ≠ [] := by simp [keyValue]
    have hhead : count < p.headEnd := by
      rw [headEnd]
      omega
    have hkeyOnly : ¬ (p.stateEnd + 1 < count ∧ count ≤ p.stateEnd + 1 + "deadline_s".toList.length) := by
      omega
    rw [if_pos hexact, hwhole, List.take_length, if_neg hne, List.foldlM_cons, hreadState, if_pos hhead,
      if_neg (not_lt.mpr h), if_neg hkeyOnly]
    simp
  rw [if_neg hexact, List.foldlM_cons, hreadState, Option.bind_eq_bind, Option.bind_some,
    getlines_take_append (keyValue_noFeed (fun c hc => (hkey'' c hc).1) hdeadline)]
  generalize hlast : rest - (keyValue "state".toList p.state.toText.toList).length - 1 = last
  have hplace : count = p.stateEnd + 1 + last := by omega
  by_cases hinside : last ≤ (keyValue "deadline_s".toList (formatG p.cfg.bendDeadlineS)).length
  · -- The break is in the line of the deadline, which gives nothing.
    have hhead : count < p.headEnd := by
      rw [headEnd]
      omega
    rw [if_pos hinside, if_pos hhead, if_neg (not_lt.mpr h)]
    by_cases hzero : last = 0
    · have hkeyOnly : ¬ (p.stateEnd + 1 < count ∧ count ≤ p.stateEnd + 1 + "deadline_s".toList.length) := by
        omega
      rw [if_neg hkeyOnly, hzero]
      simp
    · have hne : (keyValue "deadline_s".toList (formatG p.cfg.bendDeadlineS)).take last ≠ [] := by
        rw [ne_eq, List.take_eq_nil_iff]
        exact fun h => h.elim hzero (by simp [keyValue])
      rw [if_neg hne, List.foldlM_cons,
        readLine_take _ hkey'' (by decide) hdeadline (Nat.pos_of_ne_zero hzero)]
      by_cases hkeyOnly : last ≤ "deadline_s".toList.length
      · rw [if_pos hkeyOnly, if_pos ⟨by omega, by omega⟩]
        rfl
      · have hvalue : ¬ (p.stateEnd + 1 < count ∧ count ≤ p.stateEnd + 1 + "deadline_s".toList.length) := by
          omega
        rw [if_neg hkeyOnly, if_neg hvalue, readLine_informational _ hkey'' (by decide) (by decide)
          fun c hc => hdeadline c (List.mem_of_mem_take hc)]
        simp
  · have hhead : ¬ count < p.headEnd := by
      rw [headEnd]
      omega
    have hmotors : last - (keyValue "deadline_s".toList (formatG p.cfg.bendDeadlineS)).length - 1 =
        count - p.headEnd := by
      rw [headEnd]
      omega
    rw [if_neg hinside, List.foldlM_cons, readLine_informational _ hkey'' (by decide) (by decide) hdeadline,
      Option.bind_eq_bind, Option.bind_some, if_neg hhead, hmotors]
    exact read_lines_take hp ((List.nodup_finRange n).filter _) (fun i hi => (List.mem_filter.mp hi).2) _ _

/-- The motors that a prefix shows are motors of the plan. -/
theorem mem_loaded {p : FallbackPlanner n} {i : Fin n} : i ∈ p.loaded ↔ (p.motors i).configured = true := by
  simp [loaded]

/-- A prefix shows no more motors than the plan has. -/
theorem shownMotors_le {p : FallbackPlanner n} {count shown : ℕ} (h : p.shownMotors count = some shown) :
    shown ≤ p.loaded.length := by
  unfold shownMotors at h
  split at h
  · split at h
    · cases h
    · split at h
      · cases h
      · cases h
        exact Nat.zero_le _
  · have hle := wholeLines_le h
    rwa [List.length_map] at hle

/-- The motors a prefix gives back are those of the plan exactly when it shows them all and their numbers
are printable. -/
theorem restoredMotors_iff {p : FallbackPlanner n} (hp : p.Proper) {shown : ℕ} (hle : shown ≤ p.loaded.length)
    (hread : ∀ i ∈ p.loaded.take shown, readablePlan (p.motors i) = true) :
    (fun i => if i ∈ p.loaded.take shown then rereadPlan (p.motors i) else {}) = p.motors ↔
      shown = p.loaded.length ∧ p.SixDigitNumbers := by
  constructor
  · intro heq
    have hmotor := congrFun heq
    have hall : ∀ i ∈ p.loaded, i ∈ p.loaded.take shown := by
      intro i hi
      by_contra hout
      have hempty := hmotor i
      rw [if_neg hout] at hempty
      have hconfigured := mem_loaded.mp hi
      rw [← hempty] at hconfigured
      cases hconfigured
    have hnodup : p.loaded.Nodup := (List.nodup_finRange n).filter _
    have hlength := (hnodup.subperm hall).length_le
    rw [List.length_take] at hlength
    refine ⟨by omega, fun i hi => ?_⟩
    have hin := hall i (mem_loaded.mpr hi)
    have hsame := hmotor i
    rw [if_pos hin] at hsame
    exact (rereadPlan_eq_iff hi).mp ⟨hread i hin, hsame⟩
  · rintro ⟨rfl, hsix⟩
    funext i
    rw [List.take_length]
    by_cases hi : (p.motors i).configured = true
    · rw [if_pos (mem_loaded.mpr hi)]
      exact ((rereadPlan_eq_iff hi).mpr (hsix i hi)).2
    · rw [if_neg fun h => hi (mem_loaded.mp h), hp.blank i (by simpa using hi)]

/-- A prefix of the plan's file is rejected or gives the plan back exactly when, if it is read at all, it
shows every motor and every number has at most six significant digits. -/
theorem tornSafe_iff {cfg : FallbackPlannerConfig} {p : FallbackPlanner n} (h : PlanStore.Reaches cfg p)
    (count : ℕ) :
    p.TornSafe count ↔ ∀ shown, p.Shows count shown → shown = p.loaded.length ∧ p.SixDigitNumbers := by
  have hp := PlanStore.proper_of_reaches h
  have hnone : ∀ {count}, (p.shownMotors count = none) →
      ∀ shown, p.Shows count shown → shown = p.loaded.length ∧ p.SixDigitNumbers := by
    intro count hlines shown hshows
    have := hshows.lines
    rw [hlines] at this
    cases this
  unfold TornSafe deserialize
  dsimp only
  by_cases hbefore : count < p.stateEnd
  · -- No state is read.
    have hlines : p.shownMotors count = none := by
      have hhead : p.stateEnd < p.headEnd := by
        rw [headEnd]
        omega
      rw [shownMotors, if_pos (hbefore.trans hhead), if_pos hbefore]
    refine iff_of_true (Or.inl ?_) (hnone hlines)
    cases hfold : (getlines '\n' (p.serialize.take count)).foldlM readLine ({} : Reading n) with
    | none => rfl
    | some reading => simp only [read_beforeState p hbefore hfold]
  rw [read_afterState hp.wellFormed (not_lt.mp hbefore)]
  cases hlines : p.shownMotors count with
  | none => exact iff_of_true (Or.inl rfl) (hnone hlines)
  | some shown =>
    rw [Option.bind_some]
    by_cases hread : ((p.loaded.take shown).all fun i => readablePlan (p.motors i)) = true
    · have hreadable : ∀ i ∈ p.loaded.take shown, readablePlan (p.motors i) = true :=
        List.all_eq_true.mp hread
      have hle := shownMotors_le hlines
      have hany : ((List.finRange n).any fun i =>
          (if i ∈ p.loaded.take shown then rereadPlan (p.motors i) else {}).configured) = false ↔ shown = 0 := by
        constructor
        · intro hno
          by_contra hpos
          have hlen : 0 < (p.loaded.take shown).length := by
            rw [List.length_take]
            omega
          obtain ⟨i, hi⟩ := List.exists_mem_of_length_pos hlen
          have hi' := List.any_eq_false.mp hno i (List.mem_finRange i)
          rw [if_pos hi, rereadPlan, if_pos (mem_loaded.mp (List.mem_of_mem_take hi))] at hi'
          exact hi' (mem_loaded.mp (List.mem_of_mem_take hi))
        · rintro rfl
          simp
      rw [if_pos hread]
      dsimp only
      by_cases hstate : p.state ≠ .none ∧ shown = 0
      · rw [if_pos ⟨hstate.1, hany.mpr hstate.2⟩]
        refine iff_of_true (Or.inl rfl) fun shown' hshows => absurd hstate.2 ?_
        have := Option.some.inj (hlines.symm.trans hshows.lines)
        rw [this]
        exact hshows.enough hstate.1
      · have hshows : p.Shows count shown := ⟨hlines, fun hs h0 => hstate ⟨hs, h0⟩, hreadable⟩
        rw [if_neg fun h => hstate ⟨h.1, hany.mp h.2⟩]
        simp only [Bool.true_eq_false, false_or, true_and]
        rw [restoredMotors_iff hp hle hreadable]
        constructor
        · intro hgood shown' hshows'
          have := Option.some.inj (hlines.symm.trans hshows'.lines)
          exact this ▸ hgood
        · exact fun hgood => hgood shown hshows
    · rw [if_neg hread]
      refine iff_of_true (Or.inl rfl) fun shown' hshows => absurd ?_ hread
      rw [Option.some.inj (hlines.symm.trans hshows.lines)]
      exact List.all_eq_true.mpr hshows.readable

/-- A plan of two bends, loaded and armed. -/
def twoBends : FallbackPlanner 2 :=
  (run PlanStore.step (.boot {} (by decide) none)
    [.plan 0 400 60 0, .take .command, .openFile .command true, .writeFile .command none,
      .plan 1 800 60 0, .take .command, .openFile .command true, .writeFile .command none, .arm]).planner

/-- The onboard can have the plan of two bends. -/
theorem twoBends_reaches : PlanStore.Reaches {} twoBends := ⟨_, rfl⟩

/-- The numbers of the plan of two bends have at most six significant digits. -/
theorem twoBends_sixDigitNumbers : twoBends.SixDigitNumbers := by
  have hnumbers : ∀ i : Fin 2, (twoBends.motors i).holdS = 60 ∧ (twoBends.motors i).speedHz = 0 := by
    decide +kernel
  intro i _
  rw [(hnumbers i).1, (hnumbers i).2]
  exact ⟨⟨by decide +kernel, 60, 0, by decide, by decide +kernel⟩,
    ⟨by decide +kernel, 0, 0, by decide, by decide +kernel⟩⟩

/-- The whole file of the plan of two bends is safe. -/
theorem twoBends_whole_tornSafe : twoBends.TornSafe 76 := by
  refine (tornSafe_iff twoBends_reaches 76).mpr fun shown hshows => ⟨?_, twoBends_sixDigitNumbers⟩
  have hlines : twoBends.shownMotors 76 = some twoBends.loaded.length := by decide +kernel
  exact Option.some.inj (hshows.lines.symm.trans hlines)

/-- Broken off between the lines of the two motors, the file holds an armed plan without the second. -/
theorem twoBends_not_tornSafe : PlanStore.Reaches {} twoBends ∧ ¬ twoBends.TornSafe 55 ∧
    ((FallbackPlanner.new {} (by decide) : FallbackPlanner 2).deserialize (twoBends.serialize.take 55)).1.armed =
      true := by
  refine ⟨twoBends_reaches, fun h => ?_, by decide +kernel⟩
  have haccepted : ((FallbackPlanner.new {} (by decide) : FallbackPlanner 2).deserialize
      (twoBends.serialize.take 55)).2 = true := by
    decide +kernel
  rcases h with hreject | ⟨-, hmotors⟩
  · exact Bool.false_ne_true (hreject.symm.trans haccepted)
  · exact absurd (congrFun hmotors 1) (by decide +kernel)

end FallbackPlanner

end Coatheal.Fallback
