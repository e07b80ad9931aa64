import Coatheal.Library.Calendar

/-!
# The directory of a session

`session_dir.py`: the session id that `BuildSessionId` makes of the host name, the
boot time and a suffix is parsed for its boot time and cleaned into the name of a
directory. Only ids of plain host names are parsed, so that the directory of any
other id depends on the moment at which it is asked for.
-/

namespace Coatheal.Ground.SessionDir

open Library Library.Calendar
open Library.PyText (strip decimalValue isSpace)
open Library.Text (roundHalfEven showInt showNat)

/-- What `BuildSessionId` makes a session id of: the host name and the readings of two clocks. -/
structure Boot where
  hostname : List Char
  unixS : ℤ
  monoNs : ℕ

/-- `BuildSessionId`. -/
def Boot.sessionId (boot : Boot) : List Char :=
  boot.hostname ++ '-' :: (showInt boot.unixS ++ '-' :: showNat (boot.monoNs % 1000000))

/-- A decimal digit of any script, as `\d`. -/
def isDecimal (c : Char) : Bool := (decimalValue c).isSome

/-- What may follow the digits of the time: nothing, or a hyphen and digits. -/
def closes : List Char → Bool
  | [] => true
  | '-' :: suffix => decide (suffix ≠ []) && suffix.all isDecimal
  | _ => false

/-- The time of a session id behind its name and the first hyphen. -/
def readEpoch (text : List Char) : Option ℤ :=
  let digits := text.takeWhile isDecimal
  if 9 ≤ digits.length ∧ digits.length ≤ 11 ∧ closes (text.dropWhile isDecimal) = true then PyText.int digits else none

/-- `session_epoch`. The classes of the pattern share no character with what follows them, so that it is read from the
left; a text that is stripped has no newline at its end. -/
def sessionEpoch (sessionId : List Char) : Option ℤ :=
  match strip sessionId with
  | [] => none
  | letter :: rest =>
    if letter.isAlpha then
      match rest.dropWhile Char.isAlphanum with
      | '-' :: text => readEpoch text
      | _ => none
    else none

/-- A character that a file name keeps. -/
def isSafe (c : Char) : Bool := c.isAlphanum || c = '.' || c = '_' || c = '-'

/-- Every run of other characters becomes one underscore. -/
def subUnsafe (inRun : Bool) : List Char → List Char
  | [] => []
  | c :: rest =>
    if isSafe c then c :: subUnsafe false rest
    else if inRun then subUnsafe true rest
    else '_' :: subUnsafe true rest

/-- `safe_component`. -/
def safeComponent (text : List Char) : List Char :=
  let cleaned := (subUnsafe false (strip text)).take 80
  if cleaned = [] then "unknown".toList else cleaned

/-- `_stamp`, which rounds to microseconds and then leaves them out. -/
def stamp (epoch : ℚ) : Option (List Char) := showMoment (roundHalfEven (epoch * 1000000) / 1000000)

/-- `session_dir_name`: at the moment of the clock, unless it is called with another. -/
def sessionDirName (sessionId : List Char) (now : Option ℚ) (clock : ℚ) : Option (List Char) :=
  let epoch : ℚ := match sessionEpoch sessionId with
    | some parsed => parsed
    | none => now.getD clock
  (stamp epoch).map fun time => time ++ '_' :: safeComponent sessionId

/-- The path of a `SessionDirectory`. -/
def sessionDirectory (root : List (List Char)) (sessionId : List Char) (now : Option ℚ) (clock : ℚ) :
    Option (List (List Char)) :=
  (sessionDirName sessionId now clock).map fun name => root ++ ["sessions".toList, name]

/-- Two session ids keep apart what belongs apart: the boot times are read from them, and at any two moments they have
directories, which are the same exactly if the ids are. -/
structure Identified (a b : Boot) : Prop where
  epochs : sessionEpoch a.sessionId = some a.unixS ∧ sessionEpoch b.sessionId = some b.unixS
  directories : ∀ root now clock later laterClock,
    (sessionDirectory root a.sessionId now clock).isSome = true ∧
    (sessionDirectory root b.sessionId later laterClock).isSome = true ∧
    (sessionDirectory root a.sessionId now clock = sessionDirectory root b.sessionId later laterClock ↔
      a.sessionId = b.sessionId)

/-- Behind white space the host name is a letter and letters and digits, and the boot time has 9 to 11 digits. -/
structure Boot.Plain (boot : Boot) : Prop where
  hostname : ∃ letter rest, boot.hostname.dropWhile isSpace = letter :: rest ∧ letter.isAlpha = true ∧
    ∀ c ∈ rest, c.isAlphanum = true
  time : 10 ^ 8 ≤ boot.unixS ∧ boot.unixS < 10 ^ 11

section Parse

/-- The first character that is not dropped. -/
theorem head_dropWhile {p : Char → Bool} {text rest : List Char} {c : Char} (h : text.dropWhile p = c :: rest) :
    p c = false := by
  have hnot := List.head?_dropWhile_not p text
  rw [h] at hnot
  exact hnot

/-- A digit is a decimal. -/
theorem isDecimal_of_isDigit {c : Char} (h : c.isDigit = true) : isDecimal c = true := by
  rw [isDecimal, PyText.decimalValue_of_isDigit h]
  rfl

/-- A hyphen is no decimal. -/
theorem isDecimal_hyphen : isDecimal '-' = false := by decide +kernel

/-- A printed number is decimals. -/
theorem showNat_all (value : ℕ) : (showNat value).all isDecimal = true :=
  List.all_eq_true.mpr fun _ hc => isDecimal_of_isDigit (Text.showNat_digits hc)

/-- A hyphen is not among decimals. -/
theorem count_hyphen {text : List Char} (h : text.all isDecimal = true) : text.count '-' = 0 := by
  refine List.count_eq_zero.mpr fun hmem => ?_
  have hdecimal := List.all_eq_true.mp h '-' hmem
  rw [isDecimal_hyphen] at hdecimal
  cases hdecimal

/-- A stripped session id is the host name without the white space in front of it, and the rest. -/
theorem strip_sessionId (boot : Boot) : strip boot.sessionId =
    boot.hostname.dropWhile isSpace ++ '-' :: (showInt boot.unixS ++ '-' :: showNat (boot.monoNs % 1000000)) := by
  have hsplit : boot.sessionId = boot.hostname.takeWhile isSpace ++ (boot.hostname.dropWhile isSpace ++
      '-' :: (showInt boot.unixS ++ '-' :: showNat (boot.monoNs % 1000000))) := by
    rw [← List.append_assoc, List.takeWhile_append_dropWhile]
    rfl
  rw [hsplit, PyText.strip_append_left fun c hc => List.mem_takeWhile_imp hc]
  refine PyText.trim_eq_self_of_ends (fun c hc => ?_) fun c hc => ?_
  · cases hdrop : boot.hostname.dropWhile isSpace with
    | nil =>
      rw [hdrop] at hc
      obtain rfl := Option.some.inj hc
      decide
    | cons first rest =>
      rw [hdrop] at hc
      obtain rfl := Option.some.inj hc
      exact head_dropWhile hdrop
  · obtain ⟨digits, last, hdigits⟩ : ∃ digits last, showNat (boot.monoNs % 1000000) = digits ++ [last] := by
      refine ⟨_, _, (List.dropLast_append_getLast (Text.showNat_ne_nil _)).symm⟩
    rw [hdigits, ← List.cons_append, ← List.append_assoc, ← List.cons_append, ← List.append_assoc,
      List.getLast?_concat] at hc
    obtain rfl := Option.some.inj hc
    exact PyText.isSpace_of_isDigit (Text.showNat_digits (hdigits ▸ List.mem_append_right _ (List.mem_singleton_self _)))

/-- The time is read where there is one of 9 to 11 digits. -/
theorem readEpoch_eq (time : ℤ) (suffix : ℕ) : readEpoch (showInt time ++ '-' :: showNat suffix) =
    if 10 ^ 8 ≤ time ∧ time < 10 ^ 11 then some time else none := by
  rw [readEpoch]
  by_cases hneg : time < 0
  · rw [showInt, if_pos hneg, List.cons_append, List.takeWhile_cons_of_neg (by rw [isDecimal_hyphen]; simp), if_neg
      (by simp), if_neg (by omega)]
  · obtain ⟨value, rfl⟩ : ∃ value : ℕ, time = value := ⟨time.toNat, by omega⟩
    have hdigits : ∀ c ∈ showNat value, isDecimal c = true := fun c hc => List.all_eq_true.mp (showNat_all value) c hc
    have hshow : showInt (value : ℤ) = showNat value := by
      rw [showInt, if_neg hneg, Int.natAbs_natCast]
    have htake : (showNat value ++ '-' :: showNat suffix).takeWhile isDecimal = showNat value := by
      rw [List.takeWhile_append_of_pos hdigits, List.takeWhile_cons_of_neg (by rw [isDecimal_hyphen]; simp),
        List.append_nil]
    have hdrop : (showNat value ++ '-' :: showNat suffix).dropWhile isDecimal = '-' :: showNat suffix := by
      rw [List.dropWhile_append_of_pos hdigits, List.dropWhile_cons_of_neg (by rw [isDecimal_hyphen]; simp)]
    have hcloses : closes ('-' :: showNat suffix) = true := by
      rw [closes, showNat_all, decide_eq_true (Text.showNat_ne_nil suffix)]
      rfl
    have hlong : 9 ≤ (showNat value).length ↔ 10 ^ 8 ≤ value := by
      have hiff : (showNat value).length ≤ 8 ↔ value < 10 ^ 8 := Nat.length_toDigits_le_iff (by omega) (by omega)
      omega
    have hshort : (showNat value).length ≤ 11 ↔ value < 10 ^ 11 :=
      Nat.length_toDigits_le_iff (by omega) (by omega)
    have hint : value < 10 ^ 11 → PyText.int (showNat value) = some (value : ℤ) := fun hlt => by
      rw [← hshow]
      exact PyText.int_showInt_of_lt (by rw [Int.natAbs_natCast]; omega)
    rw [hshow, htake, hdrop]
    by_cases hbounds : 10 ^ 8 ≤ value ∧ value < 10 ^ 11
    · rw [if_pos ⟨hlong.mpr hbounds.1, hshort.mpr hbounds.2, hcloses⟩, if_pos (by omega), hint hbounds.2]
    · rw [if_neg fun hall => hbounds ⟨hlong.mp hall.1, hshort.mp hall.2.1⟩, if_neg (by omega)]

/-- No time is read where two hyphens are left. -/
theorem readEpoch_eq_none {text : List Char} (h : 2 ≤ text.count '-') : readEpoch text = none := by
  have hfront : (text.takeWhile isDecimal).count '-' = 0 :=
    count_hyphen (List.all_eq_true.mpr fun _ hc => List.mem_takeWhile_imp hc)
  have hback : 2 ≤ (text.dropWhile isDecimal).count '-' := by
    rw [← List.takeWhile_append_dropWhile (p := isDecimal) (l := text), List.count_append, hfront] at h
    omega
  have hopen : closes (text.dropWhile isDecimal) = false := by
    rw [closes.eq_def]
    split
    case h_1 hnil =>
      rw [hnil] at hback
      simp at hback
    case h_2 suffix hcons =>
      rw [hcons, List.count_cons_self] at hback
      refine Bool.eq_false_iff.mpr fun hall => ?_
      have := count_hyphen (Bool.and_eq_true_iff.mp hall).2
      omega
    case h_3 => rfl
  rw [readEpoch, if_neg fun hall => by rw [hopen] at hall; exact Bool.false_ne_true hall.2.2]

/-- The boot time is read from a session id exactly if the host name is plain and the time has 9 to 11 digits. -/
theorem sessionEpoch_eq_some_iff (boot : Boot) : sessionEpoch boot.sessionId = some boot.unixS ↔ boot.Plain := by
  rw [sessionEpoch, strip_sessionId]
  cases hhost : boot.hostname.dropWhile isSpace with
  | nil =>
    refine iff_of_false (by simp) fun ⟨⟨letter, rest, hsome, _⟩, _⟩ => ?_
    rw [hhost] at hsome
    cases hsome
  | cons letter rest =>
    rw [List.cons_append]
    dsimp only
    by_cases hletter : letter.isAlpha = true
    · rw [if_pos hletter]
      by_cases hrest : ∀ c ∈ rest, c.isAlphanum = true
      · have hplain : boot.Plain ↔ 10 ^ 8 ≤ boot.unixS ∧ boot.unixS < 10 ^ 11 :=
          ⟨fun hplain => hplain.time, fun htime => ⟨⟨letter, rest, hhost, hletter, hrest⟩, htime⟩⟩
        rw [List.dropWhile_append_of_pos hrest, List.dropWhile_cons_of_neg (by decide)]
        change readEpoch (showInt boot.unixS ++ _) = _ ↔ _
        rw [readEpoch_eq, hplain]
        simp
      · refine iff_of_false ?_ fun ⟨⟨first, others, hsome, _, hall⟩, _⟩ => ?_
        · cases hkept : rest.dropWhile Char.isAlphanum with
          | nil => exact absurd (List.dropWhile_eq_nil_iff.mp hkept) hrest
          | cons c others =>
            rw [List.dropWhile_append, hkept, if_neg (by simp), List.cons_append]
            split
            case h_1 text hcons =>
              obtain ⟨_, rfl⟩ := List.cons.inj hcons
              rw [readEpoch_eq_none]
              · simp
              · simp only [List.count_append, List.count_cons_self]
                omega
            case h_2 => simp
        · obtain ⟨_, rfl⟩ := List.cons.inj (hhost.symm.trans hsome)
          exact hrest hall
    · rw [if_neg hletter]
      refine iff_of_false (by simp) fun ⟨⟨first, others, hsome, hfirst, _⟩, _⟩ => ?_
      obtain ⟨rfl, _⟩ := List.cons.inj (hhost.symm.trans hsome)
      exact hletter hfirst

end Parse

section Names

variable {boot a b : Boot}

/-- A text of characters that are kept stays as it is. -/
theorem subUnsafe_eq_self {text : List Char} (h : ∀ c ∈ text, isSafe c = true) (inRun : Bool) :
    subUnsafe inRun text = text := by
  induction text generalizing inRun with
  | nil => rfl
  | cons c rest ih =>
    rw [subUnsafe, if_pos (h c List.mem_cons_self), ih fun d hd => h d (List.mem_cons_of_mem _ hd)]

/-- Letters and digits are kept. -/
theorem isSafe_of_isAlphanum {c : Char} (h : c.isAlphanum = true) : isSafe c = true := by
  rw [isSafe, h]
  rfl

/-- A printed integer is kept. -/
theorem isSafe_showInt {value : ℤ} {c : Char} (h : c ∈ showInt value) : isSafe c = true := by
  rcases Text.showInt_chars h with hdigit | rfl
  · refine isSafe_of_isAlphanum ?_
    rw [Char.isAlphanum, hdigit, Bool.or_true]
  · decide

/-- The component of a plain session id is its first 80 characters. -/
theorem Boot.Plain.safeComponent (h : boot.Plain) :
    safeComponent boot.sessionId = (strip boot.sessionId).take 80 := by
  obtain ⟨⟨letter, rest, hhost, hletter, hrest⟩, _⟩ := h
  have hsafe : ∀ c ∈ strip boot.sessionId, isSafe c = true := by
    intro c hc
    rw [strip_sessionId, hhost, List.mem_append, List.mem_cons, List.mem_cons, List.mem_append, List.mem_cons] at hc
    rcases hc with (rfl | hname) | rfl | htime | rfl | hsuffix
    · exact isSafe_of_isAlphanum (by rw [Char.isAlphanum, hletter]; rfl)
    · exact isSafe_of_isAlphanum (hrest c hname)
    · decide
    · exact isSafe_showInt htime
    · decide
    · exact isSafe_of_isAlphanum (by rw [Char.isAlphanum, Text.showNat_digits hsuffix, Bool.or_true])
  rw [SessionDir.safeComponent, subUnsafe_eq_self hsafe, if_neg]
  rw [strip_sessionId, hhost]
  simp

/-- A whole epoch is its own moment. -/
theorem stamp_intCast (time : ℤ) : stamp time = showMoment time := by
  have hround : roundHalfEven ((time : ℚ) * 1000000) = time * 1000000 := by
    have hcast : (time : ℚ) * 1000000 = ((time * 1000000 : ℤ) : ℚ) := by push_cast; rfl
    rw [hcast, roundHalfEven, Int.floor_intCast, sub_self, if_pos (by norm_num)]
  rw [stamp, hround, Int.mul_ediv_cancel _ (by decide)]

/-- The directory of a plain session id does not depend on the moment. -/
theorem Boot.Plain.sessionDirectory (h : boot.Plain) (root : List (List Char)) (now : Option ℚ) (clock : ℚ) :
    ∃ time, showMoment boot.unixS = some time ∧ time.length = 15 ∧
      sessionDirectory root boot.sessionId now clock =
        some (root ++ ["sessions".toList, time ++ '_' :: (strip boot.sessionId).take 80]) := by
  obtain ⟨hlow, hhigh⟩ := h.time
  obtain ⟨time, htime, hlength⟩ := length_showMoment (show boot.unixS.toNat < 10 ^ 11 by omega)
  rw [Int.toNat_of_nonneg (by omega)] at htime
  refine ⟨time, htime, hlength, ?_⟩
  rw [SessionDir.sessionDirectory, sessionDirName, (sessionEpoch_eq_some_iff boot).mpr h]
  dsimp only
  rw [stamp_intCast, htime, h.safeComponent]
  rfl

/-- The directories of two plain session ids are the same exactly if the boot times and the first 80 characters are. -/
theorem sessionDirectory_eq_iff (ha : a.Plain) (hb : b.Plain) (root : List (List Char)) (now later : Option ℚ)
    (clock laterClock : ℚ) :
    sessionDirectory root a.sessionId now clock = sessionDirectory root b.sessionId later laterClock ↔
      a.unixS = b.unixS ∧ (strip a.sessionId).take 80 = (strip b.sessionId).take 80 := by
  obtain ⟨time, htime, hlength, hdirectory⟩ := ha.sessionDirectory root now clock
  obtain ⟨time', htime', hlength', hdirectory'⟩ := hb.sessionDirectory root later laterClock
  rw [hdirectory, hdirectory']
  constructor
  · intro hsame
    have hname := List.append_cancel_left (Option.some.inj hsame)
    simp only [List.cons.injEq, and_true, true_and] at hname
    obtain ⟨hfront, hback⟩ := List.append_inj hname (hlength.trans hlength'.symm)
    obtain ⟨hlow, hhigh⟩ := ha.time
    obtain ⟨hlow', hhigh'⟩ := hb.time
    have hseconds := showMoment_injective (show a.unixS.toNat < 10 ^ 11 by omega) (show b.unixS.toNat < 10 ^ 11 by omega)
      (by rw [Int.toNat_of_nonneg (by omega), Int.toNat_of_nonneg (by omega), htime, htime', hfront])
    exact ⟨by omega, (List.cons.inj hback).2⟩
  · rintro ⟨hseconds, hfirst⟩
    rw [hseconds, htime'] at htime
    rw [Option.some.inj htime, hfirst]

/-- For any host names, boot times and suffixes, two session ids keep apart what belongs apart exactly if both are plain and,
where they differ, their boot times or their first 80 characters do. -/
theorem identified_iff (a b : Boot) : Identified a b ↔ a.Plain ∧ b.Plain ∧
    (a.sessionId = b.sessionId ∨ a.unixS ≠ b.unixS ∨ (strip a.sessionId).take 80 ≠ (strip b.sessionId).take 80) := by
  constructor
  · rintro ⟨⟨hepoch, hepoch'⟩, hdirectories⟩
    have ha := (sessionEpoch_eq_some_iff a).mp hepoch
    have hb := (sessionEpoch_eq_some_iff b).mp hepoch'
    refine ⟨ha, hb, ?_⟩
    by_cases htime : a.unixS = b.unixS
    · by_cases hfirst : (strip a.sessionId).take 80 = (strip b.sessionId).take 80
      · exact Or.inl ((hdirectories [] none 0 none 0).2.2.mp
          ((sessionDirectory_eq_iff ha hb [] none none 0 0).mpr ⟨htime, hfirst⟩))
      · exact Or.inr (Or.inr hfirst)
    · exact Or.inr (Or.inl htime)
  · rintro ⟨ha, hb, hapart⟩
    refine ⟨⟨(sessionEpoch_eq_some_iff a).mpr ha, (sessionEpoch_eq_some_iff b).mpr hb⟩,
      fun root now clock later laterClock => ⟨?_, ?_, ?_⟩⟩
    · obtain ⟨time, _, _, hdirectory⟩ := ha.sessionDirectory root now clock
      rw [hdirectory]
      rfl
    · obtain ⟨time, _, _, hdirectory⟩ := hb.sessionDirectory root later laterClock
      rw [hdirectory]
      rfl
    · rw [sessionDirectory_eq_iff ha hb]
      refine ⟨fun ⟨htime, hfirst⟩ => ?_, fun hsame => ?_⟩
      · rcases hapart with hsame | hother | hother
        · exact hsame
        · exact absurd htime hother
        · exact absurd hfirst hother
      · rw [hsame]
        refine ⟨?_, rfl⟩
        have hepoch := (sessionEpoch_eq_some_iff a).mpr ha
        rw [hsame, (sessionEpoch_eq_some_iff b).mpr hb] at hepoch
        exact (Option.some.inj hepoch).symm

/-- A boot of the host name that the onboard software falls back on. -/
def fallbackBoot : Boot := ⟨"coatheal-onboard".toList, 1700000000, 5⟩

/-- Not all session ids keep apart what belongs apart: that of the fallback host name has another directory a minute later. -/
theorem not_identified_fallbackBoot : ¬ ∀ a b : Boot, Identified a b := by
  intro hall
  have hsame := ((hall fallbackBoot fallbackBoot).directories [] none 1700000100 none 1700000160).2.2.mpr rfl
  have hother : sessionDirectory [] fallbackBoot.sessionId none 1700000100 ≠
      sessionDirectory [] fallbackBoot.sessionId none 1700000160 := by
    decide +kernel
  exact hother hsame

end Names

end Coatheal.Ground.SessionDir
