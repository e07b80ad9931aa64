import Coatheal.Library.Calendar
import Coatheal.Library.Run
import Mathlib.Tactic.IntervalCases

/-!
# The clock of the onboard

`rtc_adapter.cpp`: the clock counts as right once it was seen synchronised since the
start and when it is not before the day the firmware was built on. That day comes
from the text the compiler gives for it.
-/

namespace Coatheal.Clock

open Library Library.Text Library.PyText Library.Calendar

/-- `DaysFromCivil`. -/
def daysFromCivil (year : ℤ) (month day : ℕ) : ℤ :=
  let y := if month ≤ 2 then year - 1 else year
  let era := (if 0 ≤ y then y else y - 399).tdiv 400
  let yoe := (y - era * 400).toNat
  let doy := (153 * (if 2 < month then month - 3 else month + 9) + 2) / 5 + day - 1
  let doe := yoe * 365 + yoe / 4 - yoe / 100 + doy
  era * 146097 + doe - 719468

/-- `MonthFromDate`. -/
def monthFromDate (date : List Char) : ℕ :=
  match date with
  | 'J' :: 'a' :: _ => 1
  | 'F' :: _ => 2
  | 'M' :: _ :: 'r' :: _ => 3
  | 'A' :: 'p' :: _ => 4
  | 'M' :: _ :: 'y' :: _ => 5
  | 'J' :: _ :: 'n' :: _ => 6
  | 'J' :: _ :: 'l' :: _ => 7
  | 'A' :: 'u' :: _ => 8
  | 'S' :: _ => 9
  | 'O' :: _ => 10
  | 'N' :: _ => 11
  | _ => 12

/-- `Digit`. -/
def digit (c : Char) : ℕ := if c = ' ' then 0 else c.toNat - '0'.toNat

/-- `BuildFloorFromDate`. -/
def buildFloorFromDate (date : List Char) : ℤ :=
  let place (i : ℕ) := digit (date.getD i ' ')
  daysFromCivil (place 7 * 1000 + place 8 * 100 + place 9 * 10 + place 10 : ℕ) (monthFromDate date)
    (place 4 * 10 + place 5) * 86400

/-- The name of a month in the text of a date. -/
def monthName : ℕ → List Char
  | 1 => "Jan".toList
  | 2 => "Feb".toList
  | 3 => "Mar".toList
  | 4 => "Apr".toList
  | 5 => "May".toList
  | 6 => "Jun".toList
  | 7 => "Jul".toList
  | 8 => "Aug".toList
  | 9 => "Sep".toList
  | 10 => "Oct".toList
  | 11 => "Nov".toList
  | _ => "Dec".toList

/-- `__DATE__`: the name of the month, the day in two places and the year. -/
def dateMacro (date : Date) : List Char :=
  monthName date.month ++ ' ' :: ((if date.day < 10 then ' ' :: showNat date.day else showNat date.day) ++
    ' ' :: showNat date.year)

/-- What the adapter keeps: a forced answer, and whether the clock was seen synchronised since the start. -/
structure RtcAdapter where
  override : Option Bool
  syncedSinceStart : Bool

/-- A look at the clock: whether it is synchronised now, and its seconds. -/
structure ClockLook where
  synchronised : Bool
  now : ℤ

namespace RtcAdapter

/-- `valid`. -/
def valid (floor : ℤ) (rtc : RtcAdapter) (look : ClockLook) : Bool × RtcAdapter :=
  match rtc.override with
  | some forced => (forced, rtc)
  | none =>
    let synced := rtc.syncedSinceStart || look.synchronised
    (synced && decide (floor ≤ look.now), { rtc with syncedSinceStart := synced })

/-- The adapter at the start. -/
def start : RtcAdapter := ⟨none, false⟩

/-- The adapter after some looks at the clock. -/
def looks (floor : ℤ) (history : List ClockLook) : RtcAdapter :=
  Library.run (fun rtc look => (rtc.valid floor look).2) start history

end RtcAdapter

/-- The days in front of a month. -/
theorem daysOfMonths_eq (year : ℕ) {months : ℕ} (h : months < 12) :
    daysOfMonths year months =
      if months < 2 then 31 * months else 59 + (if isLeap year then 1 else 0) + (153 * (months - 2) + 2) / 5 := by
  unfold daysOfMonths
  simp only [Finset.sum_Ico_eq_sum_range]
  interval_cases months
  all_goals
    simp only [Finset.sum_range_succ, Finset.sum_range_zero, monthLength]
    cases isLeap year <;> rfl

/-- Years counted by their place in four centuries. -/
theorem daysOfYears_era (years : ℕ) :
    daysOfYears years = years / 400 * 146097 + (years % 400 * 365 + years % 400 / 4 - years % 400 / 100) := by
  obtain ⟨era, yoe, hlt, rfl⟩ : ∃ era yoe, yoe < 400 ∧ years = 400 * era + yoe :=
    ⟨years / 400, years % 400, Nat.mod_lt _ (by decide), (Nat.div_add_mod years 400).symm⟩
  have h4 : (400 * era + yoe) / 4 = 100 * era + yoe / 4 := by omega
  have h100 : (400 * era + yoe) / 100 = 4 * era + yoe / 100 := by omega
  have h400 : (400 * era + yoe) / 400 = era := by omega
  have hrest : (400 * era + yoe) % 400 = yoe := by omega
  unfold daysOfYears
  rw [h4, h100, h400, hrest]
  omega

/-- The formula, for a year that begins in March. -/
theorem daysFromCivil_eq {year month day years : ℕ}
    (hyears : years = if month ≤ 2 then year - 1 else year) (hyear : 1 ≤ year) :
    daysFromCivil year month day =
      (daysOfYears years : ℤ) + ((153 * (if 2 < month then month - 3 else month + 9) + 2) / 5 + day - 1 : ℕ) - 719468 := by
  have hy : (if month ≤ 2 then (year : ℤ) - 1 else year) = (years : ℤ) := by
    rw [hyears]
    split <;> omega
  have hera : ((years : ℤ)).tdiv 400 = (years / 400 : ℕ) := rfl
  have hyoe : ((years : ℤ) - ((years / 400 : ℕ) : ℤ) * 400).toNat = years % 400 := by omega
  unfold daysFromCivil
  dsimp only
  rw [hy, if_pos (Int.natCast_nonneg years), hera, hyoe, daysOfYears_era]
  push_cast
  omega

/-- The formula counts the days of the calendar. -/
theorem daysFromCivil_dateOf (days : ℕ) :
    daysFromCivil (dateOf days).year (dateOf days).month (dateOf days).day = (days : ℤ) - unixStart := by
  obtain ⟨years, months, hyear, hmonth, hday, -, htwelve, hsum⟩ := dateOf_sum days
  rw [daysOfMonths_eq _ htwelve] at hsum
  rw [hyear, hmonth]
  have hsucc := daysOfYears_succ years
  unfold yearLength at hsucc
  rw [daysFromCivil_eq rfl (Nat.succ_pos years)]
  unfold unixStart
  by_cases hearly : months < 2
  · rw [if_pos hearly] at hsum
    rw [if_pos (by omega : months + 1 ≤ 2), if_neg (by omega : ¬ 2 < months + 1), Nat.succ_sub_one]
    omega
  · rw [if_neg hearly] at hsum
    rw [if_neg (by omega : ¬ months + 1 ≤ 2), if_pos (by omega : 2 < months + 1), hsucc]
    cases hleap : isLeap (years + 1) with
    | true =>
      rw [hleap, if_pos rfl] at hsum
      rw [if_pos rfl]
      omega
    | false =>
      rw [hleap, if_neg Bool.false_ne_true] at hsum
      rw [if_neg Bool.false_ne_true]
      omega

/-- A digit is read as its value. -/
theorem digit_digitChar {value : ℕ} (h : value < 10) : digit (Nat.digitChar value) = value := by
  have hall : ∀ value < 10, digit (Nat.digitChar value) = value := by decide
  exact hall value h

/-- A number of two digits. -/
theorem showNat_two {value : ℕ} (hlow : 10 ≤ value) (hhigh : value < 100) :
    showNat value = [Nat.digitChar (value / 10), Nat.digitChar (value % 10)] := by
  unfold showNat
  rw [Nat.toDigits_of_base_le (by decide) hlow, Nat.toDigits_of_lt_base (by omega)]
  rfl

/-- A number of four digits. -/
theorem showNat_four {value : ℕ} (hlow : 1000 ≤ value) (hhigh : value < 10000) :
    showNat value = [Nat.digitChar (value / 1000), Nat.digitChar (value / 100 % 10), Nat.digitChar (value / 10 % 10),
      Nat.digitChar (value % 10)] := by
  unfold showNat
  rw [Nat.toDigits_of_base_le (by decide) (by omega), Nat.toDigits_of_base_le (by decide) (by omega),
    Nat.toDigits_of_base_le (by decide) (by omega), Nat.toDigits_of_lt_base (by omega)]
  simp [Nat.div_div_eq_div_mul]

/-- The floor is the start of the day that the text of a date names. -/
theorem buildFloorFromDate_dateMacro {days : ℕ} (hlow : 1000 ≤ (dateOf days).year) (hhigh : (dateOf days).year < 10000) :
    buildFloorFromDate (dateMacro (dateOf days)) = ((days : ℤ) - unixStart) * 86400 := by
  obtain ⟨hyears, hdays⟩ := dateOf_bounds days
  obtain ⟨years, months, -, hmonth, hday, -, htwelve, -⟩ := dateOf_sum days
  rw [← daysFromCivil_dateOf]
  generalize dateOf days = date at *
  obtain ⟨year, month, day⟩ := date
  dsimp only at *
  have hyear := showNat_four hlow hhigh
  -- the day takes two places, the first of which may be blank
  obtain ⟨d0, d1, hplaces, hvalue⟩ : ∃ d0 d1, (if day < 10 then ' ' :: showNat day else showNat day) = [d0, d1] ∧
      digit d0 * 10 + digit d1 = day := by
    by_cases hshort : day < 10
    · refine ⟨' ', Nat.digitChar day, ?_, ?_⟩
      · rw [if_pos hshort]
        unfold showNat
        rw [Nat.toDigits_of_lt_base hshort]
      · rw [digit_digitChar hshort]
        exact Nat.zero_add day
    · refine ⟨Nat.digitChar (day / 10), Nat.digitChar (day % 10), ?_, ?_⟩
      · rw [if_neg hshort, showNat_two (by omega) (by omega)]
      · rw [digit_digitChar (by omega), digit_digitChar (by omega)]
        omega
  have hname : ∃ m0 m1 m2, monthName month = [m0, m1, m2] ∧ ∀ rest, monthFromDate (m0 :: m1 :: m2 :: rest) = month := by
    have hone : 1 ≤ month := hmonth ▸ Nat.succ_pos months
    interval_cases month
    all_goals exact ⟨_, _, _, rfl, fun rest => rfl⟩
  obtain ⟨m0, m1, m2, hname, hread⟩ := hname
  unfold buildFloorFromDate dateMacro
  rw [hname, hplaces, hyear]
  change daysFromCivil ((digit (Nat.digitChar (year / 1000)) * 1000 + digit (Nat.digitChar (year / 100 % 10)) * 100 +
    digit (Nat.digitChar (year / 10 % 10)) * 10 + digit (Nat.digitChar (year % 10)) : ℕ) : ℤ)
    (monthFromDate (m0 :: m1 :: m2 :: _)) (digit d0 * 10 + digit d1) * 86400 = _
  rw [hread, hvalue, digit_digitChar (by omega), digit_digitChar (by omega), digit_digitChar (by omega),
    digit_digitChar (by omega)]
  have hsum : year / 1000 * 1000 + year / 100 % 10 * 100 + year / 10 % 10 * 10 + year % 10 = year := by omega
  rw [hsum]

namespace RtcAdapter

/-- After some looks nothing is forced, and the clock was seen synchronised when one of them saw it so. -/
theorem looks_eq (floor : ℤ) (history : List ClockLook) :
    looks floor history = ⟨none, history.any ClockLook.synchronised⟩ := by
  have hrun (rtc : RtcAdapter) (hforced : rtc.override = none) (history : List ClockLook) :
      Library.run (fun rtc look => (rtc.valid floor look).2) rtc history =
        ⟨none, rtc.syncedSinceStart || history.any ClockLook.synchronised⟩ := by
    induction history generalizing rtc with
    | nil =>
      rw [run_nil, List.any_nil, Bool.or_false, ← hforced]
    | cons look history ih =>
      have hnext : (rtc.valid floor look).2 = ⟨none, rtc.syncedSinceStart || look.synchronised⟩ := by
        unfold valid
        rw [hforced]
      rw [run_cons, hnext, ih _ rfl, List.any_cons, Bool.or_assoc]
  exact hrun start rfl history

/-- A look finds the clock valid exactly when it or an earlier one saw the clock synchronised and the clock shows a day that is
not before the one the firmware was built on. -/
theorem valid_looks {built : ℕ} (hlow : 1000 ≤ (dateOf built).year) (hhigh : (dateOf built).year < 10000)
    (history : List ClockLook) (look : ClockLook) :
    ((looks (buildFloorFromDate (dateMacro (dateOf built))) history).valid (buildFloorFromDate (dateMacro (dateOf built)))
        look).1 = true ↔
      (∃ earlier ∈ history ++ [look], earlier.synchronised = true) ∧ (built : ℤ) ≤ look.now / 86400 + unixStart := by
  have hday : buildFloorFromDate (dateMacro (dateOf built)) ≤ look.now ↔ (built : ℤ) ≤ look.now / 86400 + unixStart := by
    rw [buildFloorFromDate_dateMacro hlow hhigh, ← Int.le_ediv_iff_mul_le (by decide)]
    omega
  rw [looks_eq]
  change (((history.any ClockLook.synchronised) || look.synchronised) && decide (_ ≤ look.now)) = true ↔ _
  rw [Bool.and_eq_true, decide_eq_true_iff, hday, Bool.or_eq_true, List.any_eq_true]
  simp only [List.mem_append, List.mem_singleton, or_and_right, exists_or, exists_eq_left]

/-- A clock that was synchronised once, a day after the firmware was built. -/
theorem valid_looks_day :
    ((looks (buildFloorFromDate (dateMacro (dateOf 739878))) [⟨true, 0⟩]).valid (buildFloorFromDate (dateMacro (dateOf 739878)))
      ⟨false, 1789948800⟩).1 = true :=
  (valid_looks (by decide +kernel) (by decide +kernel) [⟨true, 0⟩] ⟨false, 1789948800⟩).mpr
    ⟨⟨⟨true, 0⟩, List.mem_cons_self, rfl⟩, by decide⟩

end RtcAdapter

end Coatheal.Clock
