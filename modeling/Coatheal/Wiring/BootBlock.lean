import Coatheal.Library.Checked
import Coatheal.Library.Lines
import Coatheal.Wiring.Migration
import Mathlib.Data.List.DropRight

/-!
# The managed block of the boot configuration

`hardware_setup.py` keeps the boot-time states of the heater and motor lines in a
block of `config.txt` between two markers. A new block replaces the old ones and
the check finds it, but a begin marker without an end marker behind it takes all
lines that follow it with it.
-/

namespace Coatheal.Wiring

open Library Library.Lines
open Library.PyText (strip)
open Library.Text (showInt)

/-- `BOOT_GPIO_BEGIN`. -/
def bootGpioBegin : List Char :=
  "# >>> COATHEAL boot-time GPIO states (managed by deploy_onboard.sh; hand edits are overwritten) >>>".toList

/-- `BOOT_GPIO_END`. -/
def bootGpioEnd : List Char := "# <<< COATHEAL boot-time GPIO states <<<".toList

/-- Why no boot-time states can be derived: the layout, a pin that is no number or none of the header, or no heater. -/
inductive BootError where
  | layout
  | number (text : List Char)
  | range (key : List Char) (pin : ℤ)
  | noHeater
deriving DecidableEq

/-- `_ini_bool`. -/
def iniBool (values : Values) (key : String) (default : Bool) : Bool :=
  match values key with
  | none => default
  | some raw => ["1", "true", "yes", "on"].any fun word => PyText.lower (strip raw) = word.toList

/-- The pins of each state. -/
abbrev PinStates := List (String × ℤ)

/-- The `add` of `boot_gpio_lines`. -/
def addPin (byState : PinStates) (pinText key : List Char) (state : String) : Except BootError PinStates :=
  match Literal.intLiteral (strip pinText) with
  | none => .error (.number pinText)
  | some pin => if 0 ≤ pin ∧ pin ≤ 27 then .ok (byState ++ [(state, pin)]) else .error (.range key pin)

/-- The heater lines as texts. -/
def heaterLineTexts (values : Values) : Except BootError (List (List Char)) :=
  if values.sets specimenKeys then
    match layoutFromValues values with
    | some layout => .ok (layout.heaterLines.map showInt)
    | none => .error .layout
  else .ok (((((values "heater.output_lines").getD []).splitOn ',').filter fun piece => strip piece ≠ []))

/-- Driven low and pulled down. -/
def heldLow : String := "op,dl,pd"

/-- Driven high and pulled up. -/
def heldHigh : String := "op,dh,pu"

/-- The chip select and the enable line of a motor. -/
def addMotor (values : Values) (byState : PinStates) (motor : String) : Except BootError PinStates := do
  let cs := strip ((values (motor ++ ".cs_line")).getD [])
  let en := strip ((values (motor ++ ".enable_line")).getD [])
  let selected ← (if cs = [] then .ok byState else addPin byState cs (motor ++ ".cs_line").toList heldHigh)
  let enOff := if iniBool values (motor ++ ".enable_active_low") true then heldHigh else heldLow
  if en = [] then .ok selected else addPin selected en (motor ++ ".enable_line").toList enOff

/-- The line for the pins of a state, if it has any. -/
def stateLine (byState : PinStates) (state : String) : Option (List Char) :=
  let pins := ((byState.filter fun entry => entry.1 = state).map Prod.snd).dedup.mergeSort (· ≤ ·)
  if pins = [] then none
  else some ("gpio=".toList ++ [','].intercalate (pins.map showInt) ++ '=' :: state.toList)

/-- `boot_gpio_lines`. -/
def bootGpioLines (values : Values) : Except BootError (List (List Char)) := do
  let heaterLines ← heaterLineTexts values
  if heaterLines = [] then .error .noHeater
  else
    let heaterOff := if iniBool values "heater.active_high" true then heldLow else heldHigh
    let heaters ← heaterLines.foldlM (fun byState piece => addPin byState piece "heater line".toList heaterOff) []
    let byState ← ["motor0", "motor1"].foldlM (addMotor values) heaters
    return [heldLow, heldHigh, "op,dh,pd", "op,dl,pu"].filterMap (stateLine byState)

/-- The lines of a block in front of its states. -/
def blockHead : List (List Char) :=
  [bootGpioBegin,
    "# Schematic v4 has no external pull resistors: hold the EKM014 heater inputs".toList,
    "# OFF and the TMC5160 chip-selects/enables deselected/disabled from firmware".toList,
    "# boot until coatheal-onboard claims them. Derived from config/onboard.local.ini".toList,
    "# by `scripts/hardware_setup.py boot-gpio`; rerun coatheal-deploy after a pin change.".toList]

/-- The lines of a block. -/
def blockLines (lines : List (List Char)) : List (List Char) := blockHead ++ lines ++ [bootGpioEnd]

/-- `render_boot_gpio_block`. -/
def renderBootGpioBlock (lines : List (List Char)) : List Char := ['\n'].intercalate (blockLines lines) ++ ['\n']

/-- The line is a begin marker. -/
def isBegin (line : List Char) : Bool := strip line = bootGpioBegin

/-- The line is an end marker. -/
def isEnd (line : List Char) : Bool := strip line = bootGpioEnd

/-- The line is blank. -/
def isBlank (line : List Char) : Bool := strip line = []

/-- The loop of `upsert_boot_gpio_block`: the lines that are not inside. -/
def outsideLines : Bool → List (List Char) → List (List Char)
  | _, [] => []
  | inside, line :: rest =>
    if isBegin line then outsideLines true rest
    else if isEnd line then outsideLines false rest
    else if inside then outsideLines inside rest
    else line :: outsideLines inside rest

/-- `upsert_boot_gpio_block`. -/
def upsertBootGpioBlock (configTxt block : List Char) : List Char :=
  let out := (outsideLines false (splitLines configTxt)).rdropWhile isBlank
  let text := ['\n'].intercalate out
  (if text = [] then [] else text ++ "\n\n".toList) ++ block

/-- The loop of `boot_block_problem`: the states that are inside. -/
def foundStates : Bool → List (List Char) → List (List Char)
  | _, [] => []
  | inside, line :: rest =>
    if isBegin line then foundStates true rest
    else if isEnd line then foundStates false rest
    else if inside && "gpio=".toList.isPrefixOf (strip line) then strip line :: foundStates inside rest
    else foundStates inside rest

/-- `boot_block_problem` of a file that can be read. -/
def bootBlockProblem (path : List Char) (values : Values) (text : List Char) : Except BootError (Option (List Char)) := do
  let wanted ← bootGpioLines values
  let found := foundStates false (splitLines text)
  if found = wanted then return none
  else if found = [] then
    return some (path ++ " has no COATHEAL boot-time GPIO block, so nothing holds the ".toList ++
      "heater lines low from boot: run coatheal-deploy, then reboot".toList)
  else
    let others := [' '].intercalate (found.filter fun line => !wanted.contains line)
    let held := if others = [] then "nothing more".toList else others
    let needed := [' '].intercalate (wanted.filter fun line => !found.contains line)
    return some (path ++ " holds ".toList ++ held ++ " from boot, but this config needs ".toList ++ needed ++
      ": run coatheal-deploy, then reboot".toList)

/-- The lines besides the markers that are not inside a complete block: no block is open, or no end marker follows. -/
def unmanagedLines : Bool → List (List Char) → List (List Char)
  | _, [] => []
  | inside, line :: rest =>
    if isBegin line then unmanagedLines true rest
    else if isEnd line then unmanagedLines false rest
    else if inside && rest.any isEnd then unmanagedLines inside rest
    else line :: unmanagedLines inside rest

/-- What an upsert should do: the new text is some lines without markers and the one block behind them, these lines are
those that no complete block held, another upsert changes nothing, and the check of the file finds no problem. -/
structure Upserts (values : Values) (configTxt : List Char) (lines : List (List Char)) : Prop where
  ends : ∃ front, upsertBootGpioBlock configTxt (renderBootGpioBlock lines) = front ++ renderBootGpioBlock lines ∧
    splitLines (front ++ renderBootGpioBlock lines) = splitLines front ++ blockLines lines ∧
    (∀ line ∈ splitLines front, isBegin line = false ∧ isEnd line = false) ∧
    (splitLines front).rdropWhile isBlank = (unmanagedLines false (splitLines configTxt)).rdropWhile isBlank
  once : (blockLines lines).countP isBegin = 1 ∧ (blockLines lines).countP isEnd = 1
  idempotent : upsertBootGpioBlock (upsertBootGpioBlock configTxt (renderBootGpioBlock lines)) (renderBootGpioBlock lines) =
    upsertBootGpioBlock configTxt (renderBootGpioBlock lines)
  checked : ∀ path, bootBlockProblem path values (upsertBootGpioBlock configTxt (renderBootGpioBlock lines)) = .ok none

/-- Only blank lines and markers follow a begin marker that has no end marker behind it. -/
def BlankBehindOpen (lines : List (List Char)) : Prop :=
  ∀ front line back, lines = front ++ line :: back → isBegin line = true → (∀ other ∈ back, isEnd other = false) →
    ∀ other ∈ back, isBegin other = true ∨ isBlank other = true

/-- The lines of a block are text without line breaks. -/
def PlainStates (lines : List (List Char)) : Prop :=
  ∀ line ∈ lines, "gpio=".toList.isPrefixOf line = true ∧ ∀ c ∈ line, PyText.isSpace c = false

/-- A line of states has no white space. -/
theorem plain_stateLine {byState : PinStates} {state : String} {line : List Char}
    (hstate : ∀ c ∈ state.toList, PyText.isSpace c = false) (h : stateLine byState state = some line) :
    "gpio=".toList.isPrefixOf line = true ∧ ∀ c ∈ line, PyText.isSpace c = false := by
  rw [stateLine] at h
  split at h
  · cases h
  · obtain rfl := Option.some.inj h
    refine ⟨by rw [List.append_assoc]; exact List.isPrefixOf_iff_prefix.mpr (List.prefix_append _ _), fun c hc => ?_⟩
    have hnumber (pin : ℤ) : ∀ c ∈ showInt pin, PyText.isSpace c = false := fun c hc => by
      rcases Text.showInt_chars hc with hdigit | rfl
      · exact PyText.isSpace_of_isDigit hdigit
      · decide
    have hgpio : ∀ c ∈ "gpio=".toList, PyText.isSpace c = false := Text.forall_mem_of_all (by decide +kernel)
    rcases List.mem_append.mp hc with hfront | hback
    · rcases List.mem_append.mp hfront with hname | hpins
      · exact hgpio c hname
      · rcases mem_intercalate hpins with rfl | ⟨piece, hpiece, hin⟩
        · decide
        · obtain ⟨pin, _, rfl⟩ := List.mem_map.mp hpiece
          exact hnumber pin c hin
    · rcases List.mem_cons.mp hback with rfl | hin
      · decide
      · exact hstate c hin

/-- The lines of states have no white space. -/
theorem plain_bootGpioLines {values : Values} {lines : List (List Char)} (h : bootGpioLines values = .ok lines) :
    PlainStates lines := by
  rw [bootGpioLines] at h
  obtain ⟨heaterLines, _, hrest⟩ := Checked.bind_ok h
  split at hrest
  · cases hrest
  · obtain ⟨heaters, _, hrest⟩ := Checked.bind_ok hrest
    obtain ⟨byState, _, hdone⟩ := Checked.bind_ok hrest
    obtain rfl := Except.ok.inj hdone
    intro line hline
    obtain ⟨state, hstate, hsome⟩ := List.mem_filterMap.mp hline
    have hall : ([heldLow, heldHigh, "op,dh,pd", "op,dl,pu"].all fun state =>
        state.toList.all fun c => PyText.isSpace c = false) = true := by decide +kernel
    exact plain_stateLine (Text.forall_mem_of_all (List.all_eq_true.mp hall state hstate)) hsome

/-- Trailing members that are dropped anyway make no difference, and others do. -/
theorem rdropWhile_append_eq_iff {α : Type} {drop : α → Bool} {front back : List α} :
    (front ++ back).rdropWhile drop = front.rdropWhile drop ↔ ∀ a ∈ back, drop a = true := by
  induction back using List.reverseRecOn with
  | nil => simp
  | append_singleton back a ih =>
    rw [← List.append_assoc]
    by_cases ha : drop a = true
    · rw [List.rdropWhile_concat_pos _ _ _ ha, ih]
      simp [or_imp, forall_and, ha]
    · rw [List.rdropWhile_concat_neg _ _ _ ha]
      refine iff_of_false (fun hsame => ?_) fun hall => ha (hall a (by simp))
      have hlonger := congrArg List.length hsame
      have hshorter := (List.rdropWhile_prefix drop (l := front)).length_le
      simp only [List.length_append, List.length_singleton] at hlonger
      omega

section Scan

variable {inside : Bool} {line : List Char} {rest front back : List (List Char)}

/-- No end marker is among some lines. -/
def NoEnd (lines : List (List Char)) : Prop := ∀ other ∈ lines, isEnd other = false

/-- The lines behind a begin marker that has no end marker behind it, without the markers. -/
def openTail : Bool → List (List Char) → List (List Char)
  | _, [] => []
  | inside, line :: rest =>
    if isBegin line then openTail true rest
    else if isEnd line then openTail false rest
    else if inside && !rest.any isEnd then line :: openTail inside rest
    else openTail inside rest

/-- No end marker is found. -/
theorem any_isEnd_eq_false : rest.any isEnd = false ↔ NoEnd rest := by simp [NoEnd]

/-- Inside an open block that does not end, no line is outside. -/
theorem outsideLines_of_noEnd (h : NoEnd rest) : outsideLines true rest = [] := by
  induction rest with
  | nil => rfl
  | cons line rest ih =>
    have hrest := ih fun other hother => h other (List.mem_cons_of_mem _ hother)
    rw [outsideLines, h line List.mem_cons_self, hrest]
    simp

/-- The lines that no complete block holds are those outside and those of an open block at the end. -/
theorem unmanagedLines_eq (inside : Bool) (lines : List (List Char)) :
    unmanagedLines inside lines = outsideLines inside lines ++ openTail inside lines := by
  induction lines generalizing inside with
  | nil => rfl
  | cons line rest ih =>
    rw [unmanagedLines, outsideLines, openTail]
    by_cases hbegin : isBegin line = true
    · simp only [hbegin, if_true, ih]
    · rw [if_neg hbegin, if_neg hbegin, if_neg hbegin]
      by_cases hend : isEnd line = true
      · rw [if_pos hend, if_pos hend, if_pos hend, ih]
      · rw [if_neg hend, if_neg hend, if_neg hend]
        cases inside with
        | false => simp [ih]
        | true =>
          cases hlater : rest.any isEnd with
          | true => simp [ih]
          | false => simp [ih, outsideLines_of_noEnd (any_isEnd_eq_false.mp hlater)]

/-- The condition on an open block at the front of some lines, and on those behind it. -/
theorem blankBehindOpen_cons : BlankBehindOpen (line :: rest) ↔
    (isBegin line = true → NoEnd rest → ∀ other ∈ rest, isBegin other = true ∨ isBlank other = true) ∧
      BlankBehindOpen rest := by
  constructor
  · intro h
    exact ⟨h [] line rest rfl, fun front other back hsplit => h (line :: front) other back (by rw [hsplit]; rfl)⟩
  · rintro ⟨hfirst, hrest⟩ front other back hsplit
    cases front with
    | nil =>
      obtain ⟨rfl, rfl⟩ := List.cons.inj hsplit
      exact hfirst
    | cons first front =>
      obtain ⟨rfl, rfl⟩ := List.cons.inj hsplit
      exact hrest front other back rfl

/-- The lines of an open block at the end are blank exactly when only blank lines and markers follow its begin. -/
theorem openTail_blank_iff (inside : Bool) (lines : List (List Char)) :
    (∀ other ∈ openTail inside lines, isBlank other = true) ↔
      (inside = true → NoEnd lines → ∀ other ∈ lines, isBegin other = true ∨ isBlank other = true) ∧
        BlankBehindOpen lines := by
  induction lines generalizing inside with
  | nil =>
    refine iff_of_true (by simp [openTail]) ⟨by simp, fun front line back hsplit => ?_⟩
    cases front with
    | nil => cases hsplit
    | cons first front => cases hsplit
  | cons line rest ih =>
    have hnext (h : NoEnd (line :: rest)) : NoEnd rest := fun other hother => h other (List.mem_cons_of_mem _ hother)
    rw [openTail, blankBehindOpen_cons]
    by_cases hbegin : isBegin line = true
    · rw [if_pos hbegin, ih]
      constructor
      · rintro ⟨hopen, hlater⟩
        refine ⟨fun _ hnone => List.forall_mem_cons.mpr ⟨Or.inl hbegin, hopen rfl (hnext hnone)⟩, fun _ => hopen rfl, hlater⟩
      · rintro ⟨_, hopen, hlater⟩
        exact ⟨fun _ => hopen hbegin, hlater⟩
    · rw [if_neg hbegin]
      by_cases hend : isEnd line = true
      · rw [if_pos hend, ih]
        constructor
        · rintro ⟨_, hlater⟩
          refine ⟨fun _ hnone => ?_, fun hopens => absurd hopens hbegin, hlater⟩
          rw [hnone line List.mem_cons_self] at hend
          cases hend
        · rintro ⟨_, _, hlater⟩
          exact ⟨fun hfalse => (Bool.false_ne_true hfalse).elim, hlater⟩
      · rw [if_neg hend]
        by_cases hopen : (inside && !rest.any isEnd) = true
        · rw [if_pos hopen, List.forall_mem_cons, ih]
          rw [Bool.and_eq_true, Bool.not_eq_true'] at hopen
          obtain ⟨rfl, hnone⟩ := hopen
          have hnoEnd := any_isEnd_eq_false.mp hnone
          constructor
          · rintro ⟨hblank, hopen, hlater⟩
            exact ⟨fun _ _ => List.forall_mem_cons.mpr ⟨Or.inr hblank, hopen rfl hnoEnd⟩,
              fun hopens => absurd hopens hbegin, hlater⟩
          · rintro ⟨hopen, _, hlater⟩
            have hall := hopen rfl (List.forall_mem_cons.mpr ⟨Bool.eq_false_iff.mpr hend, hnoEnd⟩)
            exact ⟨(hall line List.mem_cons_self).resolve_left hbegin,
              fun _ _ other hother => hall other (List.mem_cons_of_mem _ hother), hlater⟩
        · rw [if_neg hopen, ih]
          have hclosed (hin : inside = true) : ¬ NoEnd rest := fun hnone =>
            hopen (by rw [hin, any_isEnd_eq_false.mpr hnone]; rfl)
          constructor
          · rintro ⟨_, hlater⟩
            exact ⟨fun hin hnone => absurd (hnext hnone) (hclosed hin), fun hopens => absurd hopens hbegin, hlater⟩
          · rintro ⟨_, _, hlater⟩
            exact ⟨fun hin hnone => absurd hnone (hclosed hin), hlater⟩

/-- The code keeps what no complete block holds, up to trailing blank lines, exactly when only blank lines and markers
follow an open begin marker. -/
theorem kept_iff (lines : List (List Char)) :
    (unmanagedLines false lines).rdropWhile isBlank = (outsideLines false lines).rdropWhile isBlank ↔
      BlankBehindOpen lines := by
  rw [unmanagedLines_eq, rdropWhile_append_eq_iff, openTail_blank_iff]
  exact and_iff_right fun hfalse => (Bool.false_ne_true hfalse).elim

end Scan

section Block

variable {values : Values} {lines front back : List (List Char)} {line : List Char}

/-- Lines without markers. -/
def Unmarked (lines : List (List Char)) : Prop := ∀ line ∈ lines, isBegin line = false ∧ isEnd line = false

/-- Unmarked lines in front of others are outside. -/
theorem outsideLines_unmarked (h : Unmarked front) : outsideLines false (front ++ back) = front ++ outsideLines false back := by
  induction front with
  | nil => rfl
  | cons line front ih =>
    obtain ⟨⟨hbegin, hend⟩, hrest⟩ := List.forall_mem_cons.mp h
    rw [List.cons_append, outsideLines, hbegin, hend, ih hrest]
    rfl

/-- Unmarked lines behind a begin marker are inside. -/
theorem outsideLines_inside (h : Unmarked front) : outsideLines true (front ++ back) = outsideLines true back := by
  induction front with
  | nil => rfl
  | cons line front ih =>
    obtain ⟨⟨hbegin, hend⟩, hrest⟩ := List.forall_mem_cons.mp h
    rw [List.cons_append, outsideLines, hbegin, hend, ih hrest]
    rfl

/-- Lines that are outside are lines of the text without markers. -/
theorem mem_outsideLines {inside : Bool} (h : line ∈ outsideLines inside lines) :
    line ∈ lines ∧ isBegin line = false ∧ isEnd line = false := by
  induction lines generalizing inside with
  | nil => cases h
  | cons first lines ih =>
    have hlater {inside : Bool} (hin : line ∈ outsideLines inside lines) :
        line ∈ first :: lines ∧ isBegin line = false ∧ isEnd line = false :=
      ⟨List.mem_cons_of_mem _ (ih hin).1, (ih hin).2⟩
    rw [outsideLines] at h
    by_cases hbegin : isBegin first = true
    · rw [if_pos hbegin] at h
      exact hlater h
    rw [if_neg hbegin] at h
    by_cases hend : isEnd first = true
    · rw [if_pos hend] at h
      exact hlater h
    rw [if_neg hend] at h
    cases inside with
    | true => exact hlater h
    | false =>
      rcases List.mem_cons.mp h with rfl | hin
      · exact ⟨List.mem_cons_self, Bool.eq_false_iff.mpr hbegin, Bool.eq_false_iff.mpr hend⟩
      · exact hlater hin

/-- No state is found in unmarked lines at the front. -/
theorem foundStates_unmarked (h : Unmarked front) : foundStates false (front ++ back) = foundStates false back := by
  induction front with
  | nil => rfl
  | cons line front ih =>
    obtain ⟨⟨hbegin, hend⟩, hrest⟩ := List.forall_mem_cons.mp h
    rw [List.cons_append, foundStates, hbegin, hend, ih hrest]
    rfl

/-- What is fixed about the markers and the comments of a block: the markers are plain and differ, the comments are
neither markers nor states, and no line has a line break. -/
def fixedLines (first last : List Char) (comments : List (List Char)) : Bool :=
  strip first = first && strip last = last && first.head? = some '#' && last.head? = some '#' && first ≠ last &&
    comments.all (fun line => strip line ≠ first && strip line ≠ last && !"gpio=".toList.isPrefixOf (strip line)) &&
    (first :: last :: comments).all fun line => line.all fun c => !isLineBreak c

/-- The lines of a block are as they should be. -/
theorem fixedLines_block : fixedLines bootGpioBegin bootGpioEnd blockHead.tail = true := by
  refine Text.of_chars (fun first => fixedLines first bootGpioEnd blockHead.tail = true) _ ?_
  refine Text.of_chars (fun last => fixedLines _ last blockHead.tail = true) _ ?_
  refine Text.of_chars (fun line => fixedLines _ _ (line :: blockHead.tail.tail) = true) _ ?_
  refine Text.of_chars (fun line => fixedLines _ _ (_ :: line :: blockHead.tail.tail.tail) = true) _ ?_
  refine Text.of_chars (fun line => fixedLines _ _ (_ :: _ :: line :: blockHead.tail.tail.tail.tail) = true) _ ?_
  refine Text.of_chars (fun line => fixedLines _ _ (_ :: _ :: _ :: line :: []) = true) _ ?_
  decide +kernel

/-- The markers are plain, begin with a hash sign and differ. -/
theorem block_markers : (strip bootGpioBegin = bootGpioBegin ∧ strip bootGpioEnd = bootGpioEnd) ∧
    (bootGpioBegin.head? = some '#' ∧ bootGpioEnd.head? = some '#') ∧ bootGpioBegin ≠ bootGpioEnd := by
  have hfixed := fixedLines_block
  simp only [fixedLines, Bool.and_eq_true, decide_eq_true_eq] at hfixed
  obtain ⟨⟨⟨⟨⟨⟨hfirst, hlast⟩, hhash⟩, hhash'⟩, hne⟩, -⟩, -⟩ := hfixed
  exact ⟨⟨hfirst, hlast⟩, ⟨hhash, hhash'⟩, hne⟩

/-- No fixed line of a block has a line break. -/
theorem block_lines {line : List Char} (hline : line ∈ blockHead ++ [bootGpioEnd]) :
    ∀ c ∈ line, isLineBreak c = false := by
  have hfixed := (Bool.and_eq_true_iff.mp fixedLines_block).2
  have hin : line ∈ bootGpioBegin :: bootGpioEnd :: blockHead.tail := by
    rw [blockHead, List.cons_append, List.mem_cons, List.mem_append, List.mem_singleton] at hline
    rw [List.mem_cons, List.mem_cons]
    rcases hline with hfirst | hcomment | hlast
    · exact Or.inl hfirst
    · exact Or.inr (Or.inr hcomment)
    · exact Or.inr (Or.inl hlast)
  intro c hc
  have hall := List.all_eq_true.mp (List.all_eq_true.mp hfixed line hin) c hc
  rwa [Bool.not_eq_true'] at hall

/-- The begin marker is a begin marker, and no other line at the head of a block is a marker or a state. -/
theorem blockHead_lines : isBegin bootGpioBegin = true ∧ isEnd bootGpioBegin = false ∧
    (blockHead.tail.all fun line => !isBegin line && !isEnd line && !"gpio=".toList.isPrefixOf (strip line)) = true := by
  obtain ⟨⟨hfirst, -⟩, -, hne⟩ := block_markers
  refine ⟨decide_eq_true hfirst, decide_eq_false (hfirst.symm ▸ hne), List.all_eq_true.mpr fun line hline => ?_⟩
  have hcomments := (Bool.and_eq_true_iff.mp (Bool.and_eq_true_iff.mp fixedLines_block).1).2
  have hcomment := List.all_eq_true.mp hcomments line hline
  simp only [Bool.and_eq_true, decide_eq_true_eq] at hcomment
  rw [isBegin, isEnd, decide_eq_false hcomment.1.1, decide_eq_false hcomment.1.2, hcomment.2]
  rfl

/-- The end marker is an end marker. -/
theorem bootGpioEnd_line : isEnd bootGpioEnd = true ∧ isBegin bootGpioEnd = false := by
  obtain ⟨⟨-, hlast⟩, -, hne⟩ := block_markers
  exact ⟨decide_eq_true hlast, decide_eq_false (hlast.symm ▸ hne.symm)⟩

/-- A line of states is its own strip and no marker. -/
theorem plain_line (h : PlainStates lines) (hline : line ∈ lines) :
    strip line = line ∧ isBegin line = false ∧ isEnd line = false := by
  obtain ⟨hstart, hplain⟩ := h line hline
  obtain ⟨rest, hrest⟩ := List.isPrefixOf_iff_prefix.mp hstart
  have hstrip : strip line = line := Text.trim_eq_self hplain
  have hdiffers (rest : List Char) {marker : List Char} (hmarker : marker.head? = some '#') :
      "gpio=".toList ++ rest ≠ marker := fun hsame => by
    rw [← hsame] at hmarker
    exact absurd hmarker (by simp)
  refine ⟨hstrip, ?_, ?_⟩
  · rw [isBegin, hstrip, ← hrest]
    exact decide_eq_false (hdiffers rest block_markers.2.1.1)
  · rw [isEnd, hstrip, ← hrest]
    exact decide_eq_false (hdiffers rest block_markers.2.1.2)

/-- Lines of states are unmarked. -/
theorem unmarked_of_plain (h : PlainStates lines) : Unmarked lines := fun _ hline => (plain_line h hline).2

/-- The states inside a block are found. -/
theorem foundStates_inside (h : PlainStates lines) : foundStates true (lines ++ back) = lines ++ foundStates true back := by
  induction lines with
  | nil => rfl
  | cons line lines ih =>
    have hrest : PlainStates lines := fun other hother => h other (List.mem_cons_of_mem _ hother)
    obtain ⟨hstrip, hbegin, hend⟩ := plain_line h List.mem_cons_self
    rw [List.cons_append, foundStates, hbegin, hend, hstrip, (h line List.mem_cons_self).1, ih hrest]
    rfl

/-- The head of a block behind its begin marker. -/
theorem head_unmarked : Unmarked blockHead.tail := fun line hline => by
  have hall := List.all_eq_true.mp blockHead_lines.2.2 line hline
  simp only [Bool.and_eq_true, Bool.not_eq_true'] at hall
  exact hall.1

/-- A block by its markers. -/
theorem blockLines_eq (lines : List (List Char)) :
    blockLines lines = bootGpioBegin :: (blockHead.tail ++ (lines ++ [bootGpioEnd])) := by
  rw [blockLines, List.append_assoc]
  rfl

/-- No line of a block is outside. -/
theorem outsideLines_blockLines (h : PlainStates lines) : outsideLines false (blockLines lines) = [] := by
  rw [blockLines_eq, outsideLines, if_pos blockHead_lines.1, outsideLines_inside head_unmarked,
    outsideLines_inside (unmarked_of_plain h), outsideLines, bootGpioEnd_line.1, bootGpioEnd_line.2]
  rfl

/-- The states of a block are found in it. -/
theorem foundStates_blockLines (h : PlainStates lines) : foundStates false (blockLines lines) = lines := by
  have hhead (front : List (List Char))
      (hall : (front.all fun line => !isBegin line && !isEnd line && !"gpio=".toList.isPrefixOf (strip line)) = true)
      (back : List (List Char)) : foundStates true (front ++ back) = foundStates true back := by
    induction front with
    | nil => rfl
    | cons line front ih =>
      rw [List.all_cons, Bool.and_eq_true] at hall
      obtain ⟨hline, hrest⟩ := hall
      simp only [Bool.and_eq_true, Bool.not_eq_true'] at hline
      rw [List.cons_append, foundStates, hline.1.1, hline.1.2, hline.2, ih hrest]
      rfl
  rw [blockLines_eq, foundStates, if_pos blockHead_lines.1, hhead _ blockHead_lines.2.2, foundStates_inside h, foundStates,
    bootGpioEnd_line.1, bootGpioEnd_line.2]
  exact List.append_nil lines

/-- A block has one begin marker and one end marker. -/
theorem countP_blockLines (h : PlainStates lines) :
    (blockLines lines).countP isBegin = 1 ∧ (blockLines lines).countP isEnd = 1 := by
  have hbegins : lines.countP isBegin = 0 :=
    List.countP_eq_zero.mpr fun line hline => by simp [(unmarked_of_plain h line hline).1]
  have hends : lines.countP isEnd = 0 :=
    List.countP_eq_zero.mpr fun line hline => by simp [(unmarked_of_plain h line hline).2]
  have hhead : blockHead.countP isBegin = 1 ∧ blockHead.countP isEnd = 0 := by
    have hbegin : blockHead.tail.countP isBegin = 0 :=
      List.countP_eq_zero.mpr fun line hline => by simp [(head_unmarked line hline).1]
    have hend : blockHead.tail.countP isEnd = 0 :=
      List.countP_eq_zero.mpr fun line hline => by simp [(head_unmarked line hline).2]
    have hsplit : blockHead = bootGpioBegin :: blockHead.tail := rfl
    rw [hsplit, List.countP_cons, List.countP_cons, hbegin, hend, blockHead_lines.1, blockHead_lines.2.1]
    exact ⟨rfl, rfl⟩
  rw [blockLines, List.countP_append, List.countP_append, List.countP_append, List.countP_append, hbegins, hends,
    hhead.1, hhead.2, List.countP_singleton, List.countP_singleton, bootGpioEnd_line.1, bootGpioEnd_line.2]
  exact ⟨rfl, rfl⟩

/-- The lines of a block have no line breaks. -/
theorem whole_blockLines (h : PlainStates lines) : ∀ line ∈ blockLines lines, Whole line := by
  have hwhole (line : List Char) (hline : line ∈ blockHead ++ [bootGpioEnd]) : Whole line := block_lines hline
  intro line hline
  rw [blockLines, List.append_assoc] at hline
  rcases List.mem_append.mp hline with hin | hin
  · exact hwhole line (List.mem_append_left _ hin)
  rcases List.mem_append.mp hin with hstate | hin
  · exact fun c hc => Bool.eq_false_iff.mpr fun hbreak => by
      have hspace := (h line hstate).2 c hc
      rw [isSpace_of_isLineBreak hbreak] at hspace
      cases hspace
  · exact hwhole line (List.mem_append_right _ hin)

end Block

section Upsert

variable {values : Values} {lines out : List (List Char)}

/-- The lines in front of the new block: the lines outside, and a blank line behind them if there are any. -/
def frontLines (out : List (List Char)) : List (List Char) := if out = [] then [] else out ++ [[]]

/-- The lines outside without the blank lines at their end. -/
def keptLines (configTxt : List Char) : List (List Char) := (outsideLines false (splitLines configTxt)).rdropWhile isBlank

/-- A rendered block has a newline behind each of its lines. -/
theorem renderBootGpioBlock_eq (lines : List (List Char)) : renderBootGpioBlock lines = unlines (blockLines lines) :=
  intercalate_append (List.cons_ne_nil _ _)

/-- Lines of which the last is not blank make a text. -/
theorem intercalate_ne_nil {last : List Char} (hlast : isBlank last = false) :
    ['\n'].intercalate (out ++ [last]) ≠ [] := by
  have hne : last ≠ [] := by
    rintro rfl
    exact absurd hlast (by decide)
  induction out with
  | nil => simpa using hne
  | cons line out ih =>
    cases out with
    | nil => simp
    | cons next out => simp

/-- The upsert puts the block behind the kept lines and a blank line. -/
theorem upsertBootGpioBlock_eq (configTxt : List Char) (lines : List (List Char)) :
    upsertBootGpioBlock configTxt (renderBootGpioBlock lines) =
      unlines (frontLines (keptLines configTxt)) ++ renderBootGpioBlock lines := by
  rw [upsertBootGpioBlock]
  change (if ['\n'].intercalate (keptLines configTxt) = [] then [] else
    ['\n'].intercalate (keptLines configTxt) ++ "\n\n".toList) ++ renderBootGpioBlock lines = _
  congr 1
  rw [frontLines]
  by_cases hnone : keptLines configTxt = []
  · rw [hnone]
    rfl
  · have hlast : isBlank ((keptLines configTxt).getLast hnone) = false :=
      Bool.eq_false_iff.mpr (List.rdropWhile_last_not isBlank _ hnone)
    have htext : ['\n'].intercalate (keptLines configTxt) ≠ [] := by
      rw [← List.dropLast_append_getLast hnone]
      exact intercalate_ne_nil hlast
    rw [if_neg htext, if_neg hnone, unlines_append, ← intercalate_append hnone, List.append_assoc]
    rfl

/-- The kept lines are unmarked, and have no line breaks. -/
theorem unmarked_frontLines (configTxt : List Char) :
    Unmarked (frontLines (keptLines configTxt)) ∧ ∀ line ∈ frontLines (keptLines configTxt), Whole line := by
  have hkept (line : List Char) (hline : line ∈ keptLines configTxt) :
      (isBegin line = false ∧ isEnd line = false) ∧ Whole line := by
    obtain ⟨hin, hunmarked⟩ := mem_outsideLines ((List.rdropWhile_prefix isBlank _).subset hline)
    exact ⟨hunmarked, whole_splitLines configTxt line hin⟩
  have hempty : (isBegin [] = false ∧ isEnd [] = false) ∧ Whole [] := by
    obtain ⟨-, ⟨hfirst, hlast⟩, -⟩ := block_markers
    have hno {marker : List Char} (hmarker : marker.head? = some '#') : strip [] ≠ marker := by
      rintro rfl
      exact absurd hmarker (by decide)
    exact ⟨⟨decide_eq_false (hno hfirst), decide_eq_false (hno hlast)⟩, by simp [Whole]⟩
  have hfront (line : List Char) (hline : line ∈ frontLines (keptLines configTxt)) :
      (isBegin line = false ∧ isEnd line = false) ∧ Whole line := by
    rw [frontLines] at hline
    split at hline
    · cases hline
    · rcases List.mem_append.mp hline with hin | hlast
      · exact hkept line hin
      · rw [List.mem_singleton.mp hlast]
        exact hempty
  exact ⟨fun line hline => (hfront line hline).1, fun line hline => (hfront line hline).2⟩

/-- The kept lines are the front lines without the blank line at their end. -/
theorem rdropWhile_frontLines (configTxt : List Char) :
    (frontLines (keptLines configTxt)).rdropWhile isBlank = keptLines configTxt := by
  rw [frontLines]
  split
  case isTrue hnone => rw [hnone]; rfl
  case isFalse =>
    rw [List.rdropWhile_concat_pos _ _ _ (by decide)]
    exact List.rdropWhile_idempotent isBlank _

/-- The lines of an upserted text. -/
theorem splitLines_upsert (h : PlainStates lines) (configTxt : List Char) :
    splitLines (upsertBootGpioBlock configTxt (renderBootGpioBlock lines)) =
      frontLines (keptLines configTxt) ++ blockLines lines := by
  rw [upsertBootGpioBlock_eq, renderBootGpioBlock_eq, ← unlines_append, splitLines_unlines]
  intro line hline
  rcases List.mem_append.mp hline with hfront | hblock
  · exact (unmarked_frontLines configTxt).2 line hfront
  · exact whole_blockLines h line hblock

/-- The same lines are kept of an upserted text. -/
theorem keptLines_upsert (h : PlainStates lines) (configTxt : List Char) :
    keptLines (upsertBootGpioBlock configTxt (renderBootGpioBlock lines)) = keptLines configTxt := by
  rw [keptLines, splitLines_upsert h, outsideLines_unmarked (unmarked_frontLines configTxt).1, outsideLines_blockLines h,
    List.append_nil, rdropWhile_frontLines]

/-- A second upsert changes nothing. -/
theorem upsert_upsert (h : PlainStates lines) (configTxt : List Char) :
    upsertBootGpioBlock (upsertBootGpioBlock configTxt (renderBootGpioBlock lines)) (renderBootGpioBlock lines) =
      upsertBootGpioBlock configTxt (renderBootGpioBlock lines) := by
  rw [upsertBootGpioBlock_eq, keptLines_upsert h, ← upsertBootGpioBlock_eq]

/-- The check of an upserted text finds the states that the values need. -/
theorem bootBlockProblem_upsert (h : bootGpioLines values = .ok lines) (path configTxt : List Char) :
    bootBlockProblem path values (upsertBootGpioBlock configTxt (renderBootGpioBlock lines)) = .ok none := by
  have hplain := plain_bootGpioLines h
  have hfound : foundStates false (splitLines (upsertBootGpioBlock configTxt (renderBootGpioBlock lines))) = lines := by
    rw [splitLines_upsert hplain, foundStates_unmarked (unmarked_frontLines configTxt).1, foundStates_blockLines hplain]
  rw [bootBlockProblem, h]
  change (if foundStates false (splitLines (upsertBootGpioBlock configTxt (renderBootGpioBlock lines))) = lines then _
    else _) = _
  rw [if_pos hfound]
  rfl

/-- An upsert that does what it should keeps the lines that no complete block held. -/
theorem Upserts.kept {configTxt : List Char} (h : Upserts values configTxt lines) :
    BlankBehindOpen (splitLines configTxt) := by
  obtain ⟨front, htext, _, _, hkept⟩ := h.ends
  rw [upsertBootGpioBlock_eq] at htext
  obtain rfl := List.append_cancel_right htext
  rw [splitLines_unlines (unmarked_frontLines configTxt).2, rdropWhile_frontLines] at hkept
  exact (kept_iff _).mp hkept.symm

/-- For every text and all values that boot-time states can be derived from, the upsert does what it should exactly when
only blank lines and markers follow a begin marker that has no end marker behind it. -/
theorem upserts_iff_blankBehindOpen (values : Values) (configTxt : List Char) (lines : List (List Char))
    (h : bootGpioLines values = .ok lines) :
    Upserts values configTxt lines ↔ BlankBehindOpen (splitLines configTxt) := by
  refine ⟨Upserts.kept, fun hopen => ?_⟩
  have hplain := plain_bootGpioLines h
  obtain ⟨hunmarked, hwhole⟩ := unmarked_frontLines configTxt
  have hfront : splitLines (unlines (frontLines (keptLines configTxt))) = frontLines (keptLines configTxt) :=
    splitLines_unlines hwhole
  refine ⟨⟨unlines (frontLines (keptLines configTxt)), upsertBootGpioBlock_eq configTxt lines, ?_, ?_, ?_⟩,
    countP_blockLines hplain, upsert_upsert hplain configTxt, fun path => bootBlockProblem_upsert h path configTxt⟩
  · rw [← upsertBootGpioBlock_eq, splitLines_upsert hplain, hfront]
  · rw [hfront]
    exact hunmarked
  · rw [hfront, rdropWhile_frontLines]
    exact ((kept_iff _).mpr hopen).symm

/-- A configuration with one heater line. -/
def oneHeater : Values := fun key => if key = "heater.output_lines" then some "17".toList else none

/-- One heater line is driven low. -/
theorem bootGpioLines_oneHeater : bootGpioLines oneHeater = .ok ["gpio=17=op,dl,pd".toList] := by
  have htexts : heaterLineTexts oneHeater = .ok ["17".toList] := by decide +kernel
  have hheaters : addPin [] "17".toList "heater line".toList heldLow = .ok [(heldLow, 17)] := by decide +kernel
  have hmotors : ["motor0", "motor1"].foldlM (addMotor oneHeater) [(heldLow, 17)] = .ok [(heldLow, 17)] := by
    decide +kernel
  have hactive : iniBool oneHeater "heater.active_high" true = true := by decide +kernel
  have hlow : stateLine [(heldLow, 17)] heldLow = some "gpio=17=op,dl,pd".toList := by
    rw [stateLine, List.filter_singleton, decide_eq_true rfl, cond_true, List.map_singleton, show [(17 : ℤ)].dedup = [17] from rfl,
      List.mergeSort_singleton]
    decide +kernel
  have hno (state : String) (hne : heldLow ≠ state) : stateLine [(heldLow, 17)] state = none := by
    rw [stateLine, List.filter_singleton, decide_eq_false hne, cond_false]
    simp
  have hstates : [heldLow, heldHigh, "op,dh,pd", "op,dl,pu"].filterMap (stateLine [(heldLow, 17)]) =
      ["gpio=17=op,dl,pd".toList] := by
    rw [List.filterMap_cons_some hlow, List.filterMap_cons_none (hno _ (by decide)),
      List.filterMap_cons_none (hno _ (by decide)), List.filterMap_cons_none (hno _ (by decide)), List.filterMap_nil]
  have hall : ["17".toList].foldlM (fun byState piece => addPin byState piece "heater line".toList heldLow) [] =
      .ok [(heldLow, 17)] := by
    rw [List.foldlM_cons, hheaters]
    rfl
  have hsome : ["17".toList] ≠ [] := List.cons_ne_nil _ _
  simp only [bootGpioLines, htexts, hactive, Except.bind, bind, if_true, if_neg hsome, hall, hmotors, hstates]
  rfl

/-- A boot configuration whose block was cut off behind its begin marker. -/
def cutOff : List Char := bootGpioBegin ++ "\ndtparam=spi=on\n".toList

/-- Without a block, the one heater line is appended. -/
theorem upserts_iff_blankBehindOpen_oneHeater :
    Upserts oneHeater "dtparam=spi=on\n".toList ["gpio=17=op,dl,pd".toList] ↔
      BlankBehindOpen (splitLines "dtparam=spi=on\n".toList) :=
  upserts_iff_blankBehindOpen oneHeater _ _ bootGpioLines_oneHeater

/-- Not every upsert does what it should: behind a begin marker without an end marker all lines are lost. -/
theorem not_upserts_cutOff : ¬ ∀ (values : Values) (configTxt : List Char) (lines : List (List Char)),
    bootGpioLines values = .ok lines → Upserts values configTxt lines := by
  intro hall
  have hlines : splitLines cutOff = [] ++ bootGpioBegin :: ["dtparam=spi=on".toList] :=
    Text.of_chars (fun first => splitLines (first ++ "\ndtparam=spi=on\n".toList) =
      [] ++ first :: ["dtparam=spi=on".toList]) _ (by decide +kernel)
  have hother : isEnd "dtparam=spi=on".toList = false ∧ isBegin "dtparam=spi=on".toList = false ∧
      isBlank "dtparam=spi=on".toList = false := by decide +kernel
  have hblank := (hall oneHeater cutOff _ bootGpioLines_oneHeater).kept [] bootGpioBegin _ hlines blockHead_lines.1
    (fun other hin => by rw [List.mem_singleton.mp hin]; exact hother.1) _ (List.mem_singleton_self _)
  rw [hother.2.1, hother.2.2] at hblank
  exact hblank.elim Bool.false_ne_true Bool.false_ne_true

end Upsert

end Coatheal.Wiring
