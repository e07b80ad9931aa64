import Coatheal.Library.PyText

/-!
# The specimens of a motor

A motor's specimens are a text such as `ch8:19,ch2:13,ch1`: a terminal of the card for each, and the
line of its heater. The onboard reads it in C++, the setup script in Python. Both readings are instances
of one spelling of the same notation, and differ in blanks, digits and what may follow the last comma.
-/

namespace Coatheal.Wiring

open Library
open Library.Text (trim getlines cut Padded)

/-- A specimen in the onboard's configuration: its terminal and, when heated, its heater's line. -/
structure SpecimenConfig where
  rtdChannel : ℕ
  heaterLine : Option ℕ
deriving DecidableEq

/-- `ParseDigits`: one to four digits. -/
def parseDigits (text : List Char) : Option ℕ := if 4 < text.length then none else Text.wholeNat text

/-- The terminal of an entry in lower case, in `ParseSpecimenList`. -/
def parseTerminal (part : List Char) : Option ℕ :=
  let terminal := trim Text.isSpace part
  if "ch".toList.isPrefixOf terminal then parseDigits (terminal.drop 2) else none

/-- An item of `ParseSpecimenList`. -/
def parseItem (item : List Char) : Option SpecimenConfig :=
  let entry := (trim Text.isSpace item).map Char.toLower
  match cut ':' entry with
  | none => (parseTerminal entry).map fun channel => ⟨channel, none⟩
  | some (front, back) => do
    let channel ← parseTerminal front
    let line := trim Text.isSpace back
    let parsed ← parseDigits (if "bcm".toList.isPrefixOf line then line.drop 3 else line)
    return ⟨channel, some parsed⟩

/-- `ParseSpecimenList`. -/
def parseSpecimenList (value : List Char) : Option (List SpecimenConfig) := do
  let out ← (getlines ',' value).mapM parseItem
  if out = [] then none else return out

/-- A specimen in the script: the terminal its PT100 is on, and the line of its heater, if it has one. -/
structure Specimen where
  channel : ℤ
  line : Option ℤ
deriving DecidableEq

/-- The `ValueError` of an item that is no specimen, or of digits that are no number. -/
inductive SpecimenError where
  | item (stripped : List Char)
  | literal (digits : List Char)
deriving DecidableEq

/-- `int` of digits, in `parse_specimens`. -/
def specimenInt (digits : List Char) : Except SpecimenError ℤ :=
  match PyText.int digits with
  | some value => .ok value
  | none => .error (.literal digits)

/-- An item of `parse_specimens`. -/
def pyParseItem (item : List Char) : Except SpecimenError Specimen :=
  match cut ':' item with
  | none =>
    let terminal := PyText.lower (PyText.strip item)
    if "ch".toList.isPrefixOf terminal && PyText.isDigits (terminal.drop 2) then do
      return ⟨← specimenInt (terminal.drop 2), none⟩
    else .error (.item (PyText.strip item))
  | some (front, back) =>
    let terminal := PyText.lower (PyText.strip front)
    let heater := PyText.removeprefix "bcm".toList (PyText.lower (PyText.strip back))
    if "ch".toList.isPrefixOf terminal && PyText.isDigits (terminal.drop 2) && PyText.isDigits heater then do
      return ⟨← specimenInt (terminal.drop 2), some (← specimenInt heater)⟩
    else .error (.item (PyText.strip item))

/-- `parse_specimens`. -/
def parseSpecimens (text : List Char) : Except SpecimenError (List Specimen) :=
  let items := text.splitOn ','
  let items := if PyText.strip (items.getLastD []) = [] then items.dropLast else items
  items.mapM pyParseItem

/-- How specimens are spelled: what is blank, what may follow the last comma, and how a number reads. -/
structure Spelling where
  blank : Char → Bool
  trailing : Char → Bool
  digit : Char → Bool
  number : List Char → Option ℕ
  number_digits : ∀ text value, number text = some value → text ≠ [] ∧ ∀ c ∈ text, digit c = true
  digit_caseless : ∀ c, digit c = true ∨ digit c.toLower = true → c.toLower = c
  digit_plain : ∀ c, digit c = true → blank c = false ∧ c ≠ ':' ∧ c ≠ 'b'
  blank_toLower : ∀ c, blank c.toLower = blank c
  blank_plain : ∀ c ∈ "chbm:".toList, blank c = false
  trailing_blank : ∀ c, trailing c = true → blank c = true

namespace Spelling

/-- A text that spells a terminal. -/
def Terminal (w : Spelling) (part : List Char) (channel : ℕ) : Prop :=
  ∃ c h digits, c.toLower = 'c' ∧ h.toLower = 'h' ∧ w.number digits = some channel ∧
    Padded w.blank (c :: h :: digits) part

/-- A text that spells a line. -/
def Line (w : Spelling) (part : List Char) (line : ℕ) : Prop :=
  ∃ letters digits, (letters = [] ∨ letters.map Char.toLower = "bcm".toList) ∧ w.number digits = some line ∧
    Padded w.blank (letters ++ digits) part

/-- A text that spells a specimen. -/
inductive Entry (w : Spelling) : List Char → SpecimenConfig → Prop where
  | unheated {item : List Char} {channel : ℕ} : w.Terminal item channel → Entry w item ⟨channel, none⟩
  | heated {front back : List Char} {channel line : ℕ} : w.Terminal front channel → w.Line back line →
    Entry w (front ++ ':' :: back) ⟨channel, some line⟩

/-- A text that spells specimens: one after each comma, and after the last one perhaps nothing. -/
def Written (w : Spelling) (text : List Char) (specimens : List SpecimenConfig) : Prop :=
  ∃ items last, text.splitOn ',' = items ++ [last] ∧
    (List.Forall₂ w.Entry (items ++ [last]) specimens ∨
      (∀ c ∈ last, w.trailing c = true) ∧ List.Forall₂ w.Entry items specimens)

/-- Read a terminal. -/
def terminal (w : Spelling) (part : List Char) : Option ℕ :=
  let word := PyText.lower (trim w.blank part)
  if "ch".toList.isPrefixOf word then w.number (word.drop 2) else none

/-- Read a line. -/
def line (w : Spelling) (part : List Char) : Option ℕ :=
  w.number (PyText.removeprefix "bcm".toList (PyText.lower (trim w.blank part)))

/-- Read a specimen. -/
def read (w : Spelling) (item : List Char) : Option SpecimenConfig :=
  match cut ':' item with
  | none => (w.terminal item).map fun channel => ⟨channel, none⟩
  | some (front, back) => do return ⟨← w.terminal front, some (← w.line back)⟩

variable {w : Spelling} {part item : List Char} {channel value : ℕ}

/-- Letters of the notation are not blank, in either case. -/
theorem blank_of_toLower {c : Char} (h : c.toLower ∈ "chbm:".toList) : w.blank c = false := by
  rw [← w.blank_toLower]
  exact w.blank_plain _ h

/-- Digits have no case. -/
theorem map_toLower_digits {digits : List Char} (h : ∀ c ∈ digits, w.digit c = true) :
    digits.map Char.toLower = digits := by
  have hsame : ∀ c ∈ digits, c.toLower = id c := fun c hc => w.digit_caseless c (Or.inl (h c hc))
  rw [List.map_congr_left hsame, List.map_id]

/-- What is digits in lower case was digits before. -/
theorem eq_of_map_toLower {text : List Char} (h : ∀ c ∈ text.map Char.toLower, w.digit c = true) :
    text.map Char.toLower = text := by
  have hsame : ∀ c ∈ text, c.toLower = id c := fun c hc =>
    w.digit_caseless c (Or.inr (h c.toLower (List.mem_map_of_mem hc)))
  rw [List.map_congr_left hsame, List.map_id]

/-- The digits of a number are not blank. -/
theorem blank_of_number {digits : List Char} (h : w.number digits = some value) :
    ∀ c ∈ digits, w.blank c = false :=
  fun c hc => (w.digit_plain c ((w.number_digits _ _ h).2 c hc)).1

/-- A terminal is read exactly from the texts that spell it. -/
theorem terminal_eq_some : w.terminal part = some channel ↔ w.Terminal part channel := by
  unfold terminal Terminal PyText.lower
  dsimp only
  constructor
  · intro h
    split at h
    case isTrue hstart =>
      obtain ⟨rest, hword⟩ := List.isPrefixOf_iff_prefix.mp hstart
      have hpadded := Text.padded_trim w.blank part
      cases htrim : trim w.blank part with
      | nil =>
        rw [htrim] at hword
        exact absurd hword (by simp)
      | cons c word =>
        cases word with
        | nil =>
          rw [htrim] at hword
          exact absurd hword (by simp)
        | cons h' digits =>
          rw [htrim] at hword h hpadded
          have hlower : digits.map Char.toLower = digits := eq_of_map_toLower (w := w) ((w.number_digits _ _ h).2)
          have hletters : 'c' = c.toLower ∧ 'h' = h'.toLower := by
            have hcons := List.cons.inj hword
            exact ⟨hcons.1, (List.cons.inj hcons.2).1⟩
          refine ⟨c, h', digits, hletters.1.symm, hletters.2.symm, ?_, hpadded⟩
          have hrest : (List.map Char.toLower (c :: h' :: digits)).drop 2 = digits.map Char.toLower := rfl
          rw [hrest, hlower] at h
          exact h
    case isFalse => exact absurd h (by simp)
  · rintro ⟨c, h, digits, hc, hh, hnumber, hpadded⟩
    have hblank : ∀ d ∈ c :: h :: digits, w.blank d = false := by
      intro d hd
      rcases List.mem_cons.mp hd with rfl | hd
      · exact blank_of_toLower (by rw [hc]; decide)
      rcases List.mem_cons.mp hd with rfl | hd
      · exact blank_of_toLower (by rw [hh]; decide)
      · exact blank_of_number hnumber d hd
    have hlower : (c :: h :: digits).map Char.toLower = 'c' :: 'h' :: digits := by
      rw [List.map_cons, List.map_cons, hc, hh, map_toLower_digits (w.number_digits _ _ hnumber).2]
    rw [hpadded.trim_eq hblank, hlower]
    exact hnumber

/-- A line is read exactly from the texts that spell it. -/
theorem line_eq_some : w.line part = some value ↔ w.Line part value := by
  unfold line Line PyText.lower PyText.removeprefix
  constructor
  · intro h
    have hpadded := Text.padded_trim w.blank part
    split at h
    case isTrue hstart =>
      obtain ⟨rest, hword⟩ := List.isPrefixOf_iff_prefix.mp hstart
      have hsplit := List.take_append_drop 3 (trim w.blank part)
      have hletters : ((trim w.blank part).take 3).map Char.toLower = "bcm".toList := by
        rw [List.map_take, ← hword]
        rfl
      have hdigits : ((trim w.blank part).drop 3).map Char.toLower = (trim w.blank part).drop 3 := by
        refine eq_of_map_toLower (w := w) ?_
        rw [List.map_drop]
        exact (w.number_digits _ _ h).2
      have hnumber : w.number ((trim w.blank part).drop 3) = some value := by
        rw [← hdigits, List.map_drop]
        exact h
      exact ⟨_, _, Or.inr hletters, hnumber, by rw [hsplit]; exact hpadded⟩
    case isFalse =>
      have hdigits := eq_of_map_toLower (w := w) (w.number_digits _ _ h).2
      rw [hdigits] at h
      exact ⟨[], _, Or.inl rfl, h, hpadded⟩
  · rintro ⟨letters, digits, hletters, hnumber, hpadded⟩
    obtain ⟨hne, hdigits⟩ := w.number_digits _ _ hnumber
    have hblank : ∀ d ∈ letters ++ digits, w.blank d = false := by
      intro d hd
      rcases List.mem_append.mp hd with hletter | hdigit
      · rcases hletters with rfl | hletters
        · exact absurd hletter List.not_mem_nil
        · have hlower : d.toLower ∈ "bcm".toList := hletters ▸ List.mem_map_of_mem hletter
          have hsubset : "bcm".toList ⊆ "chbm:".toList := by decide
          exact blank_of_toLower (hsubset hlower)
      · exact blank_of_number hnumber d hdigit
    rw [hpadded.trim_eq hblank, List.map_append, map_toLower_digits hdigits]
    rcases hletters with rfl | hletters
    · cases digits with
      | nil => exact absurd rfl hne
      | cons first digits =>
        have hfirst : first ≠ 'b' := (w.digit_plain first (hdigits first List.mem_cons_self)).2.2
        have hno : "bcm".toList.isPrefixOf (first :: digits) = false := by
          change ('b' == first && "cm".toList.isPrefixOf digits) = false
          rw [beq_eq_false_iff_ne.mpr hfirst.symm, Bool.false_and]
        rw [List.map_nil, List.nil_append, hno]
        exact hnumber
    · rw [hletters]
      exact hnumber

/-- A terminal is read from what trimming leaves. -/
theorem terminal_congr {other : List Char} (h : trim w.blank part = trim w.blank other) :
    w.terminal part = w.terminal other := by
  unfold terminal
  rw [h]

/-- A line is read from what trimming leaves. -/
theorem line_congr {other : List Char} (h : trim w.blank part = trim w.blank other) :
    w.line part = w.line other := by
  unfold line
  rw [h]

/-- A specimen is read exactly from the texts that spell it. -/
theorem read_eq_some {specimen : SpecimenConfig} : w.read item = some specimen ↔ w.Entry item specimen := by
  have hterminal {part : List Char} {channel : ℕ} (h : w.Terminal part channel) : ':' ∉ part := by
    obtain ⟨c, h, digits, hc, hh, hnumber, front, back, rfl, hfront, hback⟩ := h
    have hcolon : w.blank ':' = false := w.blank_plain ':' (by decide)
    have hedge {edge : List Char} (hedge : ∀ c ∈ edge, w.blank c = true) : ':' ∉ edge :=
      fun hmem => absurd (hcolon.symm.trans (hedge ':' hmem)) Bool.false_ne_true
    have hword : ':' ∉ c :: h :: digits := by
      intro hmem
      rcases List.mem_cons.mp hmem with rfl | hmem
      · exact absurd hc (by decide)
      rcases List.mem_cons.mp hmem with rfl | hmem
      · exact absurd hh (by decide)
      · exact (w.digit_plain ':' ((w.number_digits _ _ hnumber).2 ':' hmem)).2.1 rfl
    intro hmem
    rcases List.mem_append.mp hmem with hmem | hmem
    · exact (List.mem_append.mp hmem).elim (hedge hfront) hword
    · exact hedge hback hmem
  unfold read
  constructor
  · intro h
    split at h
    case h_1 hcut =>
      obtain ⟨channel, hchannel, rfl⟩ := Option.map_eq_some_iff.mp h
      exact .unheated (terminal_eq_some.mp hchannel)
    case h_2 front back hcut =>
      obtain ⟨channel, hchannel, h⟩ := Option.bind_eq_some_iff.mp h
      obtain ⟨line, hline, h⟩ := Option.bind_eq_some_iff.mp h
      obtain rfl := Option.some.inj h
      rw [(Text.cut_eq_some hcut).1]
      exact .heated (terminal_eq_some.mp hchannel) (line_eq_some.mp hline)
  · intro h
    cases h with
    | unheated hchannel =>
      rw [Text.cut_eq_none (hterminal hchannel)]
      dsimp only
      rw [terminal_eq_some.mpr hchannel]
      rfl
    | heated hchannel hline =>
      rw [Text.cut_append (hterminal hchannel)]
      dsimp only
      rw [terminal_eq_some.mpr hchannel, line_eq_some.mpr hline]
      rfl

/-- Each of the first items is related to some second one. -/
theorem exists_of_forall₂ {α β : Type*} {r : α → β → Prop} {items : List α} {values : List β}
    (h : List.Forall₂ r items values) : ∀ item ∈ items, ∃ value, r item value := by
  induction h with
  | nil => exact fun item hmem => absurd hmem List.not_mem_nil
  | cons hfirst _ ih =>
    intro item hmem
    rcases List.mem_cons.mp hmem with rfl | hmem
    · exact ⟨_, hfirst⟩
    · exact ih item hmem

/-- What spells a specimen is not blank. -/
theorem Entry.not_blank {specimen : SpecimenConfig} (h : w.Entry item specimen) : ¬ ∀ c ∈ item, w.blank c = true := by
  have hterminal {part : List Char} {channel : ℕ} (h : w.Terminal part channel) :
      ¬ ∀ c ∈ part, w.blank c = true := by
    obtain ⟨c, h, digits, hc, hh, hnumber, front, back, rfl, -, -⟩ := h
    intro hall
    have hblank : w.blank c = true := hall c (by simp)
    rw [blank_of_toLower (by rw [hc]; decide)] at hblank
    exact absurd hblank Bool.false_ne_true
  cases h with
  | unheated hchannel => exact hterminal hchannel
  | heated hchannel hline => exact fun hall => hterminal hchannel fun c hc => hall c (List.mem_append_left _ hc)

/-- Specimens are written as the pieces between the commas, but for a last piece that may follow the last one. -/
theorem written_iff {text last : List Char} {items : List (List Char)} {specimens : List SpecimenConfig}
    (hsplit : text.splitOn ',' = items ++ [last]) : w.Written text specimens ↔
      List.Forall₂ w.Entry (if last.all w.trailing then items else items ++ [last]) specimens := by
  constructor
  · rintro ⟨items', last', hsplit', hwritten⟩
    obtain ⟨hitems', hlast'⟩ := List.append_inj' (hsplit'.symm.trans hsplit) rfl
    rw [hitems', (List.cons.inj hlast').1] at hwritten
    rcases hwritten with hall | ⟨htrailing, hitems⟩
    · split
      case isTrue htrailing =>
        obtain ⟨specimen, hentry⟩ := exists_of_forall₂ hall last (by simp)
        exact absurd (fun c hc => w.trailing_blank c (List.all_eq_true.mp htrailing c hc)) hentry.not_blank
      case isFalse => exact hall
    · rw [if_pos (List.all_eq_true.mpr htrailing)]
      exact hitems
  · intro h
    refine ⟨items, last, hsplit, ?_⟩
    split at h
    case isTrue htrailing => exact Or.inr ⟨List.all_eq_true.mp htrailing, h⟩
    case isFalse => exact Or.inl h

/-- Reading items one after the other. -/
theorem forall₂_read {items : List (List Char)} {specimens : List SpecimenConfig} :
    List.Forall₂ (fun item specimen => w.read item = some specimen) items specimens ↔
      List.Forall₂ w.Entry items specimens := by
  have hread : (fun item specimen => w.read item = some specimen) = w.Entry :=
    funext₂ fun _ _ => propext read_eq_some
  rw [hread]

end Spelling

/-- A reading of digits: four at most for the onboard, of ASCII. -/
theorem parseDigits_eq_some {text : List Char} {value : ℕ} : parseDigits text = some value ↔
    text ≠ [] ∧ text.length ≤ 4 ∧ (∀ c ∈ text, c.isDigit = true) ∧ Nat.ofDigitChars 10 text 0 = value := by
  unfold parseDigits Text.wholeNat
  split
  case isTrue hlong => simp [not_le.mpr hlong]
  case isFalse hshort => simp [not_lt.mp hshort, and_assoc]

/-- `str.isdigit` and `int` of decimal digits of any script, not too many. -/
def decimalNumber (text : List Char) : Option ℕ :=
  if text ≠ [] ∧ (text.all fun c => (PyText.decimalValue c).isSome) = true ∧ text.length ≤ PyText.maxStrDigits then
    some (PyText.digitsNat text)
  else none

/-- The onboard's spelling. -/
def onboard : Spelling where
  blank := Text.isSpace
  trailing _ := false
  digit := Char.isDigit
  number := parseDigits
  number_digits text value h := by
    obtain ⟨hne, -, hdigits, -⟩ := parseDigits_eq_some.mp h
    exact ⟨hne, hdigits⟩
  digit_caseless c h := by
    have hcapitals : ∀ c ∈ PyText.capitals, c.isDigit = false ∧ c.toLower.isDigit = false :=
      Text.forall_mem_of_all (by decide)
    refine (PyText.toLower_eq_or_mem c).resolve_right fun hmem => ?_
    rw [(hcapitals c hmem).1, (hcapitals c hmem).2] at h
    simp at h
  digit_plain c h := by
    refine ⟨(Text.isDigit_plain h).1, ?_, ?_⟩
    all_goals
      rintro rfl
      exact absurd h (by decide)
  blank_toLower c := by
    have hcapitals : ∀ c ∈ PyText.capitals, Text.isSpace c.toLower = Text.isSpace c :=
      Text.forall_mem_of_all (by decide)
    rcases PyText.toLower_eq_or_mem c with hsame | hmem
    · rw [hsame]
    · exact hcapitals c hmem
  blank_plain := Text.forall_mem_of_all (by decide)
  trailing_blank c h := absurd h Bool.false_ne_true

/-- The script's spelling. -/
def ground : Spelling where
  blank := PyText.isSpace
  trailing := PyText.isSpace
  digit c := (PyText.decimalValue c).isSome
  number := decimalNumber
  number_digits text value h := by
    unfold decimalNumber at h
    split at h
    case isTrue hnumber => exact ⟨hnumber.1, List.all_eq_true.mp hnumber.2.1⟩
    case isFalse => exact absurd h (by simp)
  digit_caseless c h := by
    have hcapitals : ∀ c ∈ PyText.capitals,
        (PyText.decimalValue c).isSome = false ∧ (PyText.decimalValue c.toLower).isSome = false :=
      Text.forall_mem_of_all (by decide)
    refine (PyText.toLower_eq_or_mem c).resolve_right fun hmem => ?_
    rw [(hcapitals c hmem).1, (hcapitals c hmem).2] at h
    simp at h
  digit_plain c h := by
    refine ⟨PyText.isSpace_of_digit (Bool.or_eq_true_iff.mpr (Or.inl h)), ?_, ?_⟩
    all_goals
      rintro rfl
      exact absurd h (by decide)
  blank_toLower c := by
    have hcapitals : ∀ c ∈ PyText.capitals, PyText.isSpace c.toLower = PyText.isSpace c :=
      Text.forall_mem_of_all (by decide)
    rcases PyText.toLower_eq_or_mem c with hsame | hmem
    · rw [hsame]
    · exact hcapitals c hmem
  blank_plain := Text.forall_mem_of_all (by decide)
  trailing_blank c h := h

/-- The specimen as the script has it. -/
def SpecimenConfig.toSpecimen (specimen : SpecimenConfig) : Specimen :=
  ⟨specimen.rtdChannel, specimen.heaterLine.map (Nat.cast : ℕ → ℤ)⟩

/-- Reading one after the other succeeds when each item reads. -/
theorem mapM_eq_some {α β : Type*} {f : α → Option β} {items : List α} {values : List β} :
    items.mapM f = some values ↔ List.Forall₂ (fun item value => f item = some value) items values := by
  induction items generalizing values with
  | nil =>
    rw [List.mapM_nil, List.forall₂_nil_left_iff]
    exact ⟨fun h => (Option.some.inj h).symm, fun h => congrArg some h.symm⟩
  | cons item items ih =>
    rw [List.mapM_cons, List.forall₂_cons_left_iff]
    constructor
    · intro h
      obtain ⟨value, hvalue, h⟩ := Option.bind_eq_some_iff.mp h
      obtain ⟨rest, hrest, h⟩ := Option.bind_eq_some_iff.mp h
      exact ⟨value, rest, hvalue, ih.mp hrest, (Option.some.inj h).symm⟩
    · rintro ⟨value, rest, hvalue, hrest, rfl⟩
      rw [hvalue, ih.mpr hrest]
      rfl

/-- The same where a failure says why. -/
theorem mapM_eq_ok {ε α β : Type*} {f : α → Except ε β} {items : List α} {values : List β} :
    items.mapM f = .ok values ↔ List.Forall₂ (fun item value => f item = .ok value) items values := by
  induction items generalizing values with
  | nil =>
    rw [List.mapM_nil, List.forall₂_nil_left_iff]
    exact ⟨fun h => (Except.ok.inj h).symm, fun h => congrArg Except.ok h.symm⟩
  | cons item items ih =>
    rw [List.mapM_cons, List.forall₂_cons_left_iff]
    constructor
    · intro h
      cases hvalue : f item with
      | error e =>
        rw [hvalue] at h
        cases h
      | ok value =>
        cases hrest : items.mapM f with
        | error e =>
          rw [hvalue, hrest] at h
          cases h
        | ok rest =>
          rw [hvalue, hrest] at h
          exact ⟨value, rest, rfl, ih.mp hrest, (Except.ok.inj h).symm⟩
    · rintro ⟨value, rest, hvalue, hrest, rfl⟩
      rw [hvalue, ih.mpr hrest]
      rfl

/-- The terminal of an entry in lower case is the terminal of the entry. -/
theorem parseTerminal_map (part : List Char) : parseTerminal (part.map Char.toLower) = onboard.terminal part := by
  have hlower : trim Text.isSpace (part.map Char.toLower) = (trim Text.isSpace part).map Char.toLower :=
    Text.trim_map onboard.blank_toLower part
  unfold parseTerminal Spelling.terminal
  rw [hlower]
  rfl

/-- The onboard reads an item in its spelling. -/
theorem parseItem_eq (item : List Char) : parseItem item = onboard.read item := by
  have hcolon : ∀ c : Char, c.toLower = ':' ↔ c = ':' := by
    intro c
    have hcapitals : ∀ c ∈ PyText.capitals, c.toLower = ':' ↔ c = ':' :=
      Text.forall_mem_of_all (by decide)
    rcases PyText.toLower_eq_or_mem c with hsame | hmem
    · rw [hsame]
    · exact hcapitals c hmem
  obtain ⟨before, after, hitem, hbefore, hafter⟩ := Text.padded_trim Text.isSpace item
  have hedge {edge : List Char} (hblank : ∀ c ∈ edge, Text.isSpace c = true) : ':' ∉ edge :=
    fun hmem => absurd (hblank ':' hmem) (by decide)
  unfold parseItem Spelling.read
  dsimp only
  rw [Text.cut_map hcolon]
  by_cases hin : ':' ∈ trim Text.isSpace item
  · obtain ⟨front, back, htrim, hfront⟩ := List.eq_append_cons_of_mem hin
    have hwhole : item = (before ++ front) ++ ':' :: (back ++ after) := by
      rw [hitem, htrim]
      simp
    have hnone : ':' ∉ before ++ front := fun hmem => (List.mem_append.mp hmem).elim (hedge hbefore) hfront
    have hterminal : onboard.terminal (before ++ front) = onboard.terminal front :=
      Spelling.terminal_congr (Text.trim_append_left hbefore)
    have hline : onboard.line (back ++ after) = onboard.line back :=
      Spelling.line_congr (Text.trim_append_right hafter)
    have hlower : trim Text.isSpace (back.map Char.toLower) = (trim Text.isSpace back).map Char.toLower :=
      Text.trim_map onboard.blank_toLower back
    rw [htrim, Text.cut_append hfront]
    conv_rhs => rw [hwhole, Text.cut_append hnone]
    dsimp only [Option.map_some]
    rw [parseTerminal_map, hterminal, hline, hlower]
    rfl
  · have hnone : ':' ∉ item := by
      intro hmem
      rw [hitem] at hmem
      rcases List.mem_append.mp hmem with hmem | hmem
      · exact (List.mem_append.mp hmem).elim (hedge hbefore) hin
      · exact hedge hafter hmem
    have hterminal : onboard.terminal (trim Text.isSpace item) = onboard.terminal item :=
      Spelling.terminal_congr (Text.trim_trim Text.isSpace item)
    rw [Text.cut_eq_none hin, Text.cut_eq_none hnone]
    dsimp only [Option.map_none]
    rw [parseTerminal_map, hterminal]

/-- The onboard reads exactly the specimens that are written in its spelling, unless there are none. -/
theorem parseSpecimenList_eq_some {value : List Char} {specimens : List SpecimenConfig} :
    parseSpecimenList value = some specimens ↔ onboard.Written value specimens ∧ specimens ≠ [] := by
  have hpieces : (getlines ',' value).mapM parseItem = some specimens ↔ onboard.Written value specimens := by
    have hread : parseItem = onboard.read := funext parseItem_eq
    rw [mapM_eq_some, hread, Spelling.forall₂_read]
    rcases PyText.splitOn_eq_getlines ',' value with hsame | hempty
    · obtain ⟨items, last, hsplit⟩ := (List.eq_nil_or_concat' _).resolve_left (List.splitOn_ne_nil ',' value)
      have hlast : last.all onboard.trailing = false := by
        cases last with
        | nil => exact absurd hsplit (PyText.splitOn_last_ne_nil hsame)
        | cons c last => rfl
      rw [Spelling.written_iff hsplit, hlast, if_neg Bool.false_ne_true, ← hsplit, hsame]
    · rw [Spelling.written_iff hempty]
      rfl
  rw [← hpieces]
  unfold parseSpecimenList
  constructor
  · intro h
    obtain ⟨out, hout, h⟩ := Option.bind_eq_some_iff.mp h
    split at h
    case isTrue => exact absurd h (by simp)
    case isFalse hne =>
      obtain rfl := Option.some.inj h
      exact ⟨hout, hne⟩
  · rintro ⟨hout, hne⟩
    rw [hout]
    exact if_neg hne

/-- Digits the script takes are read as the number they write. -/
theorem specimenInt_eq_ok {digits : List Char} {value : ℤ} :
    PyText.isDigits digits = true ∧ specimenInt digits = .ok value ↔
      ∃ number : ℕ, decimalNumber digits = some number ∧ value = number := by
  unfold specimenInt decimalNumber
  constructor
  · rintro ⟨his, hint⟩
    rw [PyText.int_of_isDigits his] at hint
    have hne : digits ≠ [] := of_decide_eq_true (Bool.and_eq_true_iff.mp his).1
    by_cases hall : ((digits.all fun c => (PyText.decimalValue c).isSome) &&
        decide (digits.length ≤ PyText.maxStrDigits)) = true
    · rw [if_pos hall] at hint
      obtain ⟨hdecimal, hshort⟩ := Bool.and_eq_true_iff.mp hall
      rw [if_pos ⟨hne, hdecimal, of_decide_eq_true hshort⟩]
      exact ⟨_, rfl, (Except.ok.inj hint).symm⟩
    · rw [if_neg hall] at hint
      cases hint
  · rintro ⟨number, hnumber, rfl⟩
    split at hnumber
    case isTrue h =>
      obtain rfl := Option.some.inj hnumber
      obtain ⟨hne, hdecimal, hshort⟩ := h
      have his : PyText.isDigits digits = true :=
        Bool.and_eq_true_iff.mpr ⟨decide_eq_true hne, List.all_eq_true.mpr fun c hc =>
          Bool.or_eq_true_iff.mpr (Or.inl (List.all_eq_true.mp hdecimal c hc))⟩
      rw [PyText.int_of_isDigits his, if_pos (Bool.and_eq_true_iff.mpr ⟨hdecimal, decide_eq_true hshort⟩)]
      exact ⟨his, rfl⟩
    case isFalse => cases hnumber

/-- The script reads a terminal in its spelling. -/
theorem pyTerminal_eq_ok {part : List Char} {channel : ℤ} :
    ("ch".toList.isPrefixOf (PyText.lower (PyText.strip part)) &&
        PyText.isDigits ((PyText.lower (PyText.strip part)).drop 2)) = true ∧
      specimenInt ((PyText.lower (PyText.strip part)).drop 2) = .ok channel ↔
    ∃ number : ℕ, ground.terminal part = some number ∧ channel = number := by
  unfold Spelling.terminal
  dsimp only
  rw [Bool.and_eq_true_iff, and_assoc, specimenInt_eq_ok]
  constructor
  · rintro ⟨hstart, number, hnumber, rfl⟩
    exact ⟨number, (if_pos hstart).trans hnumber, rfl⟩
  · rintro ⟨number, hnumber, rfl⟩
    split at hnumber
    case isTrue hstart => exact ⟨hstart, number, hnumber, rfl⟩
    case isFalse => cases hnumber

/-- The script reads an item in its spelling. -/
theorem pyParseItem_eq_ok {item : List Char} {specimen : Specimen} : pyParseItem item = .ok specimen ↔
    ∃ config, ground.read item = some config ∧ specimen = config.toSpecimen := by
  unfold pyParseItem Spelling.read
  cases hcut : cut ':' item with
  | none =>
    dsimp only
    constructor
    · intro h
      split at h
      case isTrue hgood =>
        cases hint : specimenInt ((PyText.lower (PyText.strip item)).drop 2) with
        | error e =>
          rw [hint] at h
          cases h
        | ok channel =>
          rw [hint] at h
          obtain ⟨number, hnumber, rfl⟩ := pyTerminal_eq_ok.mp ⟨hgood, hint⟩
          rw [hnumber]
          exact ⟨_, rfl, (Except.ok.inj h).symm⟩
      case isFalse => cases h
    · rintro ⟨config, hconfig, rfl⟩
      obtain ⟨number, hnumber, rfl⟩ := Option.map_eq_some_iff.mp hconfig
      obtain ⟨hgood, hint⟩ := pyTerminal_eq_ok.mpr ⟨number, hnumber, rfl⟩
      rw [if_pos hgood, hint]
      rfl
  | some sides =>
    obtain ⟨front, back⟩ := sides
    dsimp only
    constructor
    · intro h
      split at h
      case isTrue hgood =>
        obtain ⟨hterminal, hheater⟩ := Bool.and_eq_true_iff.mp hgood
        cases hint : specimenInt ((PyText.lower (PyText.strip front)).drop 2) with
        | error e =>
          rw [hint] at h
          cases h
        | ok channel =>
          cases hline : specimenInt (PyText.removeprefix "bcm".toList (PyText.lower (PyText.strip back))) with
          | error e =>
            rw [hint, hline] at h
            cases h
          | ok line =>
            rw [hint, hline] at h
            obtain ⟨number, hnumber, rfl⟩ := pyTerminal_eq_ok.mp ⟨hterminal, hint⟩
            obtain ⟨heated, hheated, rfl⟩ := specimenInt_eq_ok.mp ⟨hheater, hline⟩
            have hread : ground.line back = some heated := hheated
            rw [hnumber, hread]
            exact ⟨_, rfl, (Except.ok.inj h).symm⟩
      case isFalse => cases h
    · rintro ⟨config, hconfig, rfl⟩
      obtain ⟨number, hnumber, hconfig⟩ := Option.bind_eq_some_iff.mp hconfig
      obtain ⟨heated, hheated, hconfig⟩ := Option.bind_eq_some_iff.mp hconfig
      obtain rfl := Option.some.inj hconfig
      obtain ⟨hterminal, hint⟩ := pyTerminal_eq_ok.mpr ⟨number, hnumber, rfl⟩
      have hheated : decimalNumber (PyText.removeprefix "bcm".toList (PyText.lower (PyText.strip back))) =
        some heated := hheated
      obtain ⟨hheater, hline⟩ := specimenInt_eq_ok.mpr ⟨heated, hheated, rfl⟩
      rw [if_pos (Bool.and_eq_true_iff.mpr ⟨hterminal, hheater⟩), hint, hline]
      rfl

/-- The script reads exactly the specimens that are written in its spelling. -/
theorem parseSpecimens_eq_ok {text : List Char} {specimens : List Specimen} :
    parseSpecimens text = .ok specimens ↔
      ∃ configs, ground.Written text configs ∧ specimens = configs.map SpecimenConfig.toSpecimen := by
  obtain ⟨items, last, hsplit⟩ := (List.eq_nil_or_concat' _).resolve_left (List.splitOn_ne_nil ',' text)
  have hlast : PyText.strip last = [] ↔ last.all ground.trailing = true :=
    Text.trim_eq_nil.trans List.all_eq_true.symm
  have hread (items : List (List Char)) :
      List.Forall₂ (fun item specimen => pyParseItem item = .ok specimen) items specimens ↔
        ∃ configs, List.Forall₂ ground.Entry items configs ∧ specimens = configs.map SpecimenConfig.toSpecimen := by
    induction items generalizing specimens with
    | nil => simp
    | cons item items ih =>
      rw [List.forall₂_cons_left_iff]
      constructor
      · rintro ⟨specimen, rest, hitem, hrest, rfl⟩
        obtain ⟨config, hconfig, rfl⟩ := pyParseItem_eq_ok.mp hitem
        obtain ⟨configs, hconfigs, rfl⟩ := ih.mp hrest
        exact ⟨config :: configs, .cons (Spelling.read_eq_some.mp hconfig) hconfigs, rfl⟩
      · rintro ⟨_, hall, rfl⟩
        obtain ⟨config, configs, hconfig, hconfigs, rfl⟩ := List.forall₂_cons_left_iff.mp hall
        exact ⟨_, _, pyParseItem_eq_ok.mpr ⟨config, Spelling.read_eq_some.mpr hconfig, rfl⟩,
          ih.mpr ⟨configs, hconfigs, rfl⟩, rfl⟩
  unfold parseSpecimens
  dsimp only
  rw [hsplit, List.getLastD_concat, List.dropLast_concat, mapM_eq_ok, hread]
  simp only [Spelling.written_iff hsplit, hlast]

end Coatheal.Wiring
